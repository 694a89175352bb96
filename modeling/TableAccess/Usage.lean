import TableAccess.Resolution

/-! How often statements use what. Each statement counts once for its kind, once for each
of its tables, and once for each column of a table; columns that belong to no single
table are not counted. -/
namespace TableAccess

/-- A name and how often it was used. -/
structure UsageCount where
  name : String
  count : Nat
deriving DecidableEq, Repr, Inhabited

/-- How often statements use what. -/
structure Usage where
  statements : Nat
  kinds : List (StatementKind × Nat)
  tables : List UsageCount
  columns : List UsageCount
deriving DecidableEq, Repr, Inhabited

namespace Usage

/-- The names with their counts, the most used first, those used equally often by
name. -/
def ranked (names : List String) : List UsageCount :=
  let counted := (nameSet names).map fun name => ⟨name, names.count name⟩
  counted.mergeSort fun a b => b.count ≤ a.count

/-- How often statements of a kind occur. -/
def kindCount (kind : StatementKind) (accesses : List Access) : Nat :=
  accesses.countP fun a => a.kind == kind

/-- The usage by some statements. Kinds that do not occur are left out. -/
def ofAccesses (accesses : List Access) : Usage :=
  let counted := StatementKind.all.map fun kind => (kind, kindCount kind accesses)
  ⟨accesses.length, counted.filter fun entry => entry.2 != 0,
    ranked (accesses.flatMap Access.tables), ranked (accesses.flatMap Access.qualified)⟩

/-- How often statements of a kind were used. -/
def countOf (u : Usage) (kind : StatementKind) : Nat :=
  ((u.kinds.find? fun entry => entry.1 == kind).map Prod.snd).getD 0

end Usage
end TableAccess
