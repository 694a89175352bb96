import TableAccess.Proofs.Report.Listing
import Mathlib.Data.Finset.Card
import Mathlib.Data.List.Nodup
import Mathlib.Data.List.Perm.Lattice
import Mathlib.Data.Set.Card

/-! What a usage counts. A table is counted once for each statement that accesses it. A column is counted
under its written form, and columns of several tables can have one written form, so each of them counts.
The names come out of a set in their order and are then sorted by their counts, which leaves names that
are used equally often as they were; so the lists are in order by both and say the same whichever
statement comes first. -/
namespace TableAccess

/-- Whether an access lists each table, and each column of a table, just once. -/
structure Access.NamesOnce (a : Access) : Prop where
  tables : a.tables.Nodup
  keys : (a.columns.map Prod.fst).Nodup
  columns : ∀ entry ∈ a.columns, entry.2.Nodup

/-- The columns of tables that an access writes in one form. -/
def Access.rendered (a : Access) (name : String) : Set (String × String) :=
  {pair | isBucket pair.1 = false ∧ pair.2 ∈ a.columnsOf pair.1 ∧ pair.1 ++ "." ++ pair.2 = name}

/-- The more used one is first, and of two that are used equally often the one with the lesser name. -/
def UsageCount.Before (a b : UsageCount) : Prop :=
  b.count < a.count ∨ (a.count = b.count ∧ a.name < b.name)

/-- How often a list of counts says that a name is used. -/
def UsageCount.timesIn (counts : List UsageCount) (name : String) : Nat :=
  ((counts.find? fun entry => entry.name == name).map count).getD 0

/-- Whether a list of counts says of each name how often it is used: there is one entry for a name that
is used and none for any other, and the entries are in order. -/
structure UsageCount.Rank (counts : List UsageCount) (times : String → Nat) : Prop where
  entries : ∀ name, (counts.filter fun entry => entry.name == name) =
    if times name = 0 then [] else [⟨name, times name⟩]
  ordered : counts.Pairwise Before

/-- Whether a usage says of the statements of a list what they use. -/
structure Usage.Describes (u : Usage) (accesses : List Access) : Prop where
  statements : u.statements = accesses.length
  kinds : ∀ kind, u.countOf kind = accesses.countP fun a => a.kind = kind
  all_kinds : (u.kinds.map Prod.snd).sum = accesses.length
  tables : UsageCount.Rank u.tables fun table => accesses.countP fun a => table ∈ a.tables
  columns : UsageCount.Rank u.columns fun name => (accesses.map fun a => (a.rendered name).ncard).sum

/-- Whether a usage counts what two others count together. -/
structure Usage.IsSum (u a b : Usage) : Prop where
  statements : u.statements = a.statements + b.statements
  kinds : ∀ kind, u.countOf kind = a.countOf kind + b.countOf kind
  tables : ∀ table, UsageCount.timesIn u.tables table =
    UsageCount.timesIn a.tables table + UsageCount.timesIn b.tables table
  columns : ∀ name, UsageCount.timesIn u.columns name =
    UsageCount.timesIn a.columns name + UsageCount.timesIn b.columns name

theorem Resolver.namesOnce_resolve (r : Resolver) (s : Statement) (id : Option StatementId) :
    (r.resolve s id).access.NamesOnce where
  tables := nodup_nameSet _
  keys := by
    have keys : (nameTable (s.read r).columns).map Prod.fst =
        nameSet ((s.read r).columns.map Prod.fst) := by
      rw [nameTable, List.map_map]
      exact List.map_id _
    exact keys ▸ nodup_nameSet _
  columns entry listed := (mem_nameTable.mp listed).2 ▸ nodup_nameSet _

namespace Usage
variable {names others : List String} {name : String}

/-- Names with their counts, by name. -/
def counted (names : List String) : List UsageCount :=
  (nameSet names).map fun name => ⟨name, names.count name⟩

/-- The more used one is first. -/
def byCount (a b : UsageCount) : Ordering := compare b.count a.count

instance : Std.TransCmp byCount :=
  inferInstanceAs (Std.TransCmp fun a b => compareOn UsageCount.count b a)

theorem ranked_eq_inOrder (names : List String) : ranked names = inOrder byCount (counted names) := by
  have test (a b : UsageCount) : decide (b.count ≤ a.count) = (byCount a b != .gt) := by
    rw [Bool.eq_iff_iff, decide_eq_true_iff, bne_iff_ne]
    exact Nat.compare_ne_gt.symm
  simp only [ranked, inOrder, counted, test]

theorem pairwise_counted (names : List String) :
    (counted names).Pairwise fun a b => a.name < b.name := by
  have sorted : (nameSet names).Pairwise fun a b => compare a b = .lt := pairwise_sortedNew
  exact List.pairwise_map.mpr (sorted.imp compareOfLessAndEq_eq_lt.mp)

theorem pairwise_ranked (names : List String) : (ranked names).Pairwise UsageCount.Before := by
  rw [ranked_eq_inOrder]
  refine (pairwise_inOrder_of_pairwise (pairwise_counted names)).imp fun {a b} order => ?_
  rcases order with more | ⟨equal, before⟩
  · exact .inl (Nat.compare_eq_lt.mp more)
  · exact .inr ⟨(Nat.compare_eq_eq.mp equal).symm, before⟩

theorem filter_counted (names : List String) (name : String) :
    ((counted names).filter fun entry => entry.name == name) =
      if names.count name = 0 then [] else [⟨name, names.count name⟩] := by
  have one : (nameSet names).filter (· == name) = if names.count name = 0 then [] else [name] := by
    rw [List.filter_beq, (nodup_nameSet names).count]
    by_cases present : name ∈ names <;> simp [present, List.count_eq_zero]
  rw [counted, List.filter_map]
  change ((nameSet names).filter (· == name)).map _ = _
  rw [one]
  split <;> rfl

/-- Names are ranked by how often they occur. -/
theorem rank_ranked (names : List String) : UsageCount.Rank (ranked names) names.count where
  ordered := pairwise_ranked names
  entries name := by
    have same : ((ranked names).filter fun entry => entry.name == name).Perm
        ((counted names).filter fun entry => entry.name == name) :=
      (ranked_eq_inOrder names ▸ perm_inOrder).filter _
    rw [filter_counted] at same
    split at same
    · next absent => rw [if_pos absent, same.eq_nil]
    · next present => rw [if_neg present, same.eq_singleton]

theorem ranked_congr (permuted : names.Perm others) : ranked names = ranked others := by
  have set : nameSet names = nameSet others := nameSet_congr fun name => permuted.mem_iff
  have counts : counted names = counted others := by
    rw [counted, counted, set]
    exact List.map_congr_left fun name _ => by rw [permuted.count_eq]
  rw [ranked_eq_inOrder, ranked_eq_inOrder, counts]

end Usage

theorem UsageCount.Rank.timesIn_eq {counts : List UsageCount} {times : String → Nat}
    (rank : Rank counts times) (name : String) : timesIn counts name = times name := by
  rw [timesIn, ← List.head?_filter, rank.entries]
  split
  · next none_ => exact none_.symm
  · rfl

namespace Access
variable {a : Access} {pair entry : String × String} {table name : String}

theorem columnsOf_of_mem {entry : String × List String} (once : a.NamesOnce)
    (listed : entry ∈ a.columns) : a.columnsOf entry.1 = entry.2 := by
  unfold columnsOf
  split
  · next found first =>
    have key : found.1 = entry.1 := by simpa using List.find?_some first
    rw [List.inj_on_of_nodup_map once.keys (List.mem_of_find?_eq_some first) listed key]
  · next absent =>
    exact absurd (beq_self_eq_true entry.1) (List.find?_eq_none.mp absent entry listed)

theorem mem_pairs (once : a.NamesOnce) :
    pair ∈ a.pairs ↔ isBucket pair.1 = false ∧ pair.2 ∈ a.columnsOf pair.1 := by
  simp only [pairs, List.mem_flatMap, List.mem_filter, List.mem_map, Bool.not_eq_true']
  constructor
  · rintro ⟨entry, ⟨listed, table⟩, column, held, rfl⟩
    exact ⟨table, columnsOf_of_mem once listed ▸ held⟩
  · rintro ⟨table, held⟩
    unfold columnsOf at held
    split at held
    · next entry first =>
      have key : entry.1 = pair.1 := by simpa using List.find?_some first
      exact ⟨entry, ⟨List.mem_of_find?_eq_some first, key ▸ table⟩, pair.2, held, Prod.ext key rfl⟩
    · cases held

theorem nodup_pairs (once : a.NamesOnce) : a.pairs.Nodup := by
  refine List.nodup_flatMap.mpr ⟨fun entry listed => ?_, ?_⟩
  · exact (once.columns entry (List.mem_filter.mp listed).1).map (Prod.mk_right_injective entry.1)
  · have keys : a.columns.Pairwise fun e e' => e.1 ≠ e'.1 := List.pairwise_map.mp once.keys
    refine (keys.filter _).imp fun {e e'} different => ?_
    simp only [Function.onFun, List.Disjoint, List.mem_map]
    rintro _ ⟨column, _, rfl⟩ ⟨column', _, same⟩
    exact different (Prod.mk.inj same).1.symm

/-- A written form occurs once for each column that has it. -/
theorem count_qualified (once : a.NamesOnce) (name : String) :
    a.qualified.count name = (a.rendered name).ncard := by
  have those : a.rendered name = ((a.pairs.filter fun p => p.1 ++ "." ++ p.2 == name).toFinset :
      Set (String × String)) := by
    ext pair
    simp [rendered, mem_pairs once, and_assoc]
  rw [those, Set.ncard_coe_finset, List.toFinset_card_of_nodup ((nodup_pairs once).filter _),
    ← List.countP_eq_length_filter, qualified, List.count_eq_countP, List.countP_map]
  rfl

end Access

namespace Usage
variable {accesses more : List Access} {a : Access}

theorem count_tables (once : ∀ a ∈ accesses, a.NamesOnce) (table : String) :
    (accesses.flatMap Access.tables).count table = accesses.countP fun a => table ∈ a.tables := by
  induction accesses with
  | nil => rfl
  | cons a rest ih =>
    obtain ⟨first, later⟩ := List.forall_mem_cons.mp once
    rw [List.flatMap_cons, List.count_append, ih later, first.tables.count, List.countP_cons,
      Nat.add_comm]
    simp only [decide_eq_true_eq]

theorem count_columns (once : ∀ a ∈ accesses, a.NamesOnce) (name : String) :
    (accesses.flatMap Access.qualified).count name =
      (accesses.map fun a => (a.rendered name).ncard).sum := by
  rw [List.count_flatMap]
  exact congrArg List.sum (List.map_congr_left fun a listed => Access.count_qualified (once a listed) name)

/-- A kind that does not occur is left out. -/
theorem find?_kinds (times : StatementKind → Nat) (kind : StatementKind) :
    (((StatementKind.all.map fun kind => (kind, times kind)).filter fun entry => entry.2 != 0).find?
      fun entry => entry.1 == kind) = if times kind = 0 then none else some (kind, times kind) := by
  rw [List.find?_filter]
  by_cases unused : times kind = 0
  · rw [if_pos unused]
    cases kind <;> simp [StatementKind.all, unused]
  · rw [if_neg unused]
    cases kind <;> simp [StatementKind.all, unused]

theorem countOf_ofAccesses (accesses : List Access) (kind : StatementKind) :
    (ofAccesses accesses).countOf kind = kindCount kind accesses := by
  rw [countOf, ofAccesses, find?_kinds]
  split
  · next unused => exact unused.symm
  · rfl

/-- Leaving out what is zero leaves a sum as it is. -/
private theorem sum_filter_used (counts : List (StatementKind × Nat)) :
    ((counts.filter fun entry => entry.2 != 0).map Prod.snd).sum = (counts.map Prod.snd).sum := by
  induction counts with
  | nil => rfl
  | cons entry rest ih =>
    rw [List.filter_cons]
    split
    · rw [List.map_cons, List.map_cons, List.sum_cons, List.sum_cons, ih]
    · next unused =>
      have zero : entry.2 = 0 := by simpa using unused
      rw [List.map_cons, List.sum_cons, ih, zero, Nat.zero_add]

/-- Every statement is of one kind. -/
theorem sum_kinds (accesses : List Access) :
    ((ofAccesses accesses).kinds.map Prod.snd).sum = accesses.length := by
  rw [ofAccesses, sum_filter_used]
  simp only [StatementKind.all, List.map_cons, List.map_nil, List.sum_cons, List.sum_nil, kindCount]
  induction accesses with
  | nil => rfl
  | cons a rest ih =>
    simp only [List.countP_cons, List.length_cons]
    cases a.kind <;> simp <;> omega

theorem describes_ofAccesses (once : ∀ a ∈ accesses, a.NamesOnce) :
    (ofAccesses accesses).Describes accesses where
  statements := rfl
  kinds := countOf_ofAccesses accesses
  all_kinds := sum_kinds accesses
  tables := funext (count_tables once) ▸ rank_ranked (accesses.flatMap Access.tables)
  columns := funext (count_columns once) ▸ rank_ranked (accesses.flatMap Access.qualified)

theorem ofAccesses_congr {reordered : List Access} (permuted : accesses.Perm reordered) :
    ofAccesses accesses = ofAccesses reordered := by
  simp only [ofAccesses, kindCount, permuted.length_eq, permuted.countP_eq,
    ranked_congr (permuted.flatMap_right Access.tables),
    ranked_congr (permuted.flatMap_right Access.qualified)]

private theorem timesIn_ranked_append (f : Access → List String) (name : String) :
    UsageCount.timesIn (ranked ((accesses ++ more).flatMap f)) name =
      UsageCount.timesIn (ranked (accesses.flatMap f)) name +
        UsageCount.timesIn (ranked (more.flatMap f)) name := by
  simp only [(rank_ranked _).timesIn_eq, List.flatMap_append, List.count_append]

theorem isSum_ofAccesses (accesses more : List Access) :
    (ofAccesses (accesses ++ more)).IsSum (ofAccesses accesses) (ofAccesses more) where
  statements := List.length_append
  kinds kind := by simp only [countOf_ofAccesses, kindCount, List.countP_append]
  tables := timesIn_ranked_append Access.tables
  columns := timesIn_ranked_append Access.qualified

/-- The usage of a report is that of the statements it lists. -/
theorem describes_statementReport (files : Files) (p : Plan) :
    (p.statementReport files).usage.Describes
      ((p.statementReport files).entries.map ReportEntry.access) := by
  rw [usage_statementReport]
  refine describes_ofAccesses fun a listed => ?_
  obtain ⟨entry, placed, rfl⟩ := List.mem_map.mp listed
  rw [entries_statementReport] at placed
  obtain ⟨path, _, read⟩ := List.mem_flatMap.mp (perm_inOrder.mem_iff.mp placed)
  obtain ⟨s, _, resolved⟩ := List.mem_filterMap.mp read
  obtain ⟨parsed, _, rfl⟩ := Option.map_eq_some_iff.mp resolved
  exact Resolver.namesOnce_resolve _ parsed none

/-- **Usage counts are exact, whatever the order of the statements.** The counts of the kinds make up the
number of statements; a table has one entry, with the number of statements that access it, and a written
form of columns has one with the number of columns that have it, statement by statement; the entries are in
order. Rearranged statements have the same usage, and what is counted of two lists is added up for both
together. -/
theorem counts_exact (accesses : List Access) (once : ∀ a ∈ accesses, a.NamesOnce) :
    (ofAccesses accesses).Describes accesses ∧
      (∀ reordered, accesses.Perm reordered → ofAccesses reordered = ofAccesses accesses) ∧
      ∀ more, (ofAccesses (accesses ++ more)).IsSum (ofAccesses accesses) (ofAccesses more) :=
  ⟨describes_ofAccesses once, fun _ permuted => (ofAccesses_congr permuted).symm,
    isSum_ofAccesses accesses⟩

/-- Statements of which one reads two columns with one written form, and one a column that may be in
either of two tables. -/
def sharedForms : List Access :=
  [⟨.select, ["log", "log.day"], [("log", ["day.note"]), ("log.day", ["note"])]⟩,
    ⟨.select, ["log", "users"], [(ambiguousBucket, ["note"]), ("users", ["id"])]⟩,
    ⟨.insert, ["users"], [("users", ["id"])]⟩]

theorem counts_exact_sharedForms : (∀ a ∈ sharedForms, a.NamesOnce) ∧
    (ofAccesses sharedForms).Describes sharedForms ∧
    UsageCount.timesIn (ofAccesses sharedForms).tables "users" = 2 ∧
    (ofAccesses sharedForms).countOf .select = 2 ∧
    ofAccesses sharedForms.reverse = ofAccesses sharedForms := by
  have once : ∀ a ∈ sharedForms, a.NamesOnce := by
    simp only [sharedForms, List.forall_mem_cons]
    exact ⟨⟨by decide, by decide, by decide⟩, ⟨by decide, by decide, by decide⟩,
      ⟨by decide, by decide, by decide⟩, by simp⟩
  obtain ⟨described, reordered, _⟩ := counts_exact sharedForms once
  exact ⟨once, described, described.tables.timesIn_eq "users", described.kinds .select,
    reordered _ (List.reverse_perm _).symm⟩

end Usage
end TableAccess
