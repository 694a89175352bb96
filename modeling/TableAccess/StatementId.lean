/-! Identifiers of statements: the namespace of a mapper and a name in it. Written out, a
period separates the two, and a statement without namespace has none. -/
namespace TableAccess

/-- The identifier of a statement. -/
structure StatementId where
  space : String
  id : String
deriving DecidableEq, Repr, Inhabited

namespace StatementId

/-- The written form. -/
def text (s : StatementId) : String :=
  if s.space.isEmpty then s.id else s.space ++ "." ++ s.id

/-- Whether there is a namespace. -/
def hasSpace (s : StatementId) : Bool := !s.space.isEmpty

/-- Read a written form: the last period separates the namespace. -/
def parse (written : String) : StatementId :=
  let backwards := written.toList.reverse
  let id := backwards.takeWhile (· != '.')
  ⟨String.ofList ((backwards.drop (id.length + 1)).reverse), String.ofList id.reverse⟩

/-- By namespace, then by name. -/
def order (a b : StatementId) : Ordering := (compare a.space b.space).then (compare a.id b.id)

end StatementId
end TableAccess
