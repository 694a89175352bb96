/-! Names are compared without regard to the case of ASCII letters; other letters are
distinct. The folded form of a name is its lower case in ASCII. -/
namespace TableAccess

/-- The form of a name in which it is looked up. -/
def fold (name : String) : String := name.map Char.toLower

/-- Whether two names are the same. -/
def sameName (a b : String) : Bool := fold a == fold b

/-- Whether a name is among others. -/
def hasName (names : List String) (name : String) : Bool := names.any (sameName name)

end TableAccess
