import TableAccess.Resolution
import Mathlib.Data.List.Basic

/-! Names are the same exactly when their folded forms are equal, and collecting names
into a set, or pairs into a table of sets, keeps what was put in and adds nothing. What a
resolution answers about a table can therefore be read off the pairs that its statement
was found to read and write. Of items that the order of a set does not tell apart, the
first one is kept; in a table by key it is the last one. -/
namespace TableAccess

theorem sameName_iff {a b : String} : sameName a b = true ↔ fold a = fold b := by
  simp [sameName]

@[simp] theorem sameName_refl (a : String) : sameName a a = true := sameName_iff.mpr rfl

theorem sameName_comm (a b : String) : sameName a b = sameName b a := by
  simp only [sameName, Bool.beq_comm]

/-- The same names are the same as any third name. -/
theorem sameName_congr {a b : String} (same : sameName a b = true) (c : String) :
    sameName a c = sameName b c := by
  simp only [sameName, sameName_iff.mp same]

section Letters
variable {c : Char}

private theorem toNat_toLower (upper : c.val ≥ 'A'.val ∧ c.val ≤ 'Z'.val) :
    65 ≤ c.val.toNat ∧ c.toLower.val.toNat = c.val.toNat + 32 := by
  have least : 65 ≤ c.val.toNat := upper.1
  have most : c.val.toNat ≤ 90 := upper.2
  have moved : c.toLower.val = c.val + 32 := congrArg Char.val (dif_pos upper)
  refine ⟨least, ?_⟩
  rw [moved, UInt32.toNat_add]
  simp only [UInt32.reduceToNat]
  omega

private theorem toLower_of_not_upper (other : ¬(c.val ≥ 'A'.val ∧ c.val ≤ 'Z'.val)) :
    c.toLower = c := dif_neg other

private theorem toLower_toLower (c : Char) : c.toLower.toLower = c.toLower := by
  by_cases upper : c.val ≥ 'A'.val ∧ c.val ≤ 'Z'.val
  · refine toLower_of_not_upper fun again => ?_
    have most : c.toLower.val.toNat ≤ 90 := again.2
    obtain ⟨least, moved⟩ := toNat_toLower upper
    omega
  · rw [toLower_of_not_upper upper, toLower_of_not_upper upper]

/-- Nothing but small letters is made of another character. -/
theorem eq_of_toLower {d : Char} (other : d.val.toNat < 97) (lower : c.toLower = d) : c = d := by
  by_cases upper : c.val ≥ 'A'.val ∧ c.val ≤ 'Z'.val
  · obtain ⟨least, moved⟩ := toNat_toLower upper
    rw [lower] at moved
    omega
  · exact (toLower_of_not_upper upper).symm.trans lower

end Letters

/-- A folded name is its own folded form. -/
@[simp] theorem fold_fold (name : String) : fold (fold name) = fold name := by
  rw [fold, fold, String.map_map]
  exact congrArg (String.map · name) (funext toLower_toLower)

/-- Folded forms are compared letter by letter. -/
theorem fold_eq_fold_iff {a b : String} :
    fold a = fold b ↔ a.toList.map Char.toLower = b.toList.map Char.toLower := by
  rw [← String.toList_inj, fold, fold, String.toList_map, String.toList_map]

/-- The name for all columns has no other spelling. -/
theorem eq_everyColumn_of_same {name : String} (same : sameName name everyColumn = true) :
    name = everyColumn := by
  have folded := congrArg String.toList (sameName_iff.mp same)
  have star : everyColumn.toList.map Char.toLower = ['*'] := by decide
  simp only [fold, String.toList_map, star, List.map_eq_singleton_iff] at folded
  obtain ⟨c, single, lower⟩ := folded
  rw [eq_of_toLower (by decide) lower] at single
  exact String.toList_inj.mp single

section Sets
variable {α : Type} {order : α → α → Ordering} {x y : α} {items others : List α}

theorem mem_insertNew (lawful : ∀ a b, order a b = .eq → a = b) :
    y ∈ insertNew order x items ↔ y = x ∨ y ∈ items := by
  induction items with
  | nil => simp [insertNew]
  | cons item rest ih =>
    rw [insertNew]
    split
    · exact List.mem_cons
    · rename_i equal
      rw [lawful x item equal]
      simp
    · rw [List.mem_cons, ih, List.mem_cons]
      exact or_left_comm

theorem mem_sortedNew (lawful : ∀ a b, order a b = .eq → a = b) :
    y ∈ sortedNew order items ↔ y ∈ items := by
  have collected (start : List α) :
      y ∈ items.foldl (fun sorted x => insertNew order x sorted) start ↔ y ∈ start ∨ y ∈ items := by
    induction items generalizing start with
    | nil => simp
    | cons item rest ih =>
      rw [List.foldl_cons, ih, mem_insertNew lawful, List.mem_cons, or_assoc, or_left_comm]
  simpa [sortedNew] using collected []

private theorem mem_of_mem_insertNew (member : y ∈ insertNew order x items) : y = x ∨ y ∈ items := by
  induction items with
  | nil => exact .inl (List.mem_singleton.mp member)
  | cons item rest ih =>
    rw [insertNew] at member
    split at member
    · exact List.mem_cons.mp member
    · exact .inr member
    · rcases List.mem_cons.mp member with rfl | member
      · exact .inr List.mem_cons_self
      · exact (ih member).imp_right (List.mem_cons_of_mem _)

/-- An item takes its place in the order. -/
theorem pairwise_insertNew [Std.TransCmp order]
    (sorted : items.Pairwise fun a b => order a b = .lt) :
    (insertNew order x items).Pairwise fun a b => order a b = .lt := by
  induction items with
  | nil => exact List.pairwise_singleton _ _
  | cons item rest ih =>
    obtain ⟨first, later⟩ := List.pairwise_cons.mp sorted
    rw [insertNew]
    split
    · rename_i before
      refine List.pairwise_cons.mpr ⟨List.forall_mem_cons.mpr ⟨before, fun y member => ?_⟩, sorted⟩
      exact Std.TransCmp.lt_trans before (first y member)
    · exact sorted
    · rename_i after
      refine List.pairwise_cons.mpr ⟨fun y member => ?_, ih later⟩
      rcases mem_of_mem_insertNew member with rfl | member
      · exact Std.OrientedCmp.gt_iff_lt.mp after
      · exact first y member

theorem pairwise_sortedNew [Std.TransCmp order] :
    (sortedNew order items).Pairwise fun a b => order a b = .lt := by
  have collected (start : List α) (sorted : start.Pairwise fun a b => order a b = .lt) :
      (items.foldl (fun sorted x => insertNew order x sorted) start).Pairwise
        fun a b => order a b = .lt := by
    induction items generalizing start with
    | nil => exact sorted
    | cons item rest ih => exact ih _ (pairwise_insertNew sorted)
  exact collected [] .nil

/-- In a sorted list nothing is repeated. -/
theorem nodup_of_pairwise [Std.TransCmp order]
    (sorted : items.Pairwise fun a b => order a b = .lt) : items.Nodup := by
  refine sorted.imp fun before equal => ?_
  rw [equal] at before
  exact Std.OrientedCmp.not_lt_of_lt before before

/-- Two sorted lists with the same items are the same list. -/
theorem eq_of_pairwise_of_mem [Std.TransCmp order]
    (sorted : items.Pairwise fun a b => order a b = .lt)
    (sorted' : others.Pairwise fun a b => order a b = .lt)
    (same : ∀ x, x ∈ items ↔ x ∈ others) : items = others := by
  refine List.Perm.eq_of_pairwise (fun a b _ _ before after => ?_) sorted sorted'
    ((List.perm_ext_iff_of_nodup (nodup_of_pairwise sorted) (nodup_of_pairwise sorted')).mpr same)
  exact absurd after (Std.OrientedCmp.not_lt_of_lt before)

private theorem find?_insertNew [Std.TransCmp order]
    (sorted : items.Pairwise fun a b => order a b = .lt) :
    ((insertNew order x items).find? fun z => order z y == .eq) =
      (items.find? fun z => order z y == .eq).or (if order x y == .eq then some x else none) := by
  induction items with
  | nil => cases equal : order x y == .eq <;> simp [insertNew, equal]
  | cons item rest ih =>
    obtain ⟨first, later⟩ := List.pairwise_cons.mp sorted
    rw [insertNew]
    split
    · rename_i before
      cases equal : order x y == .eq with
      | false => simp [equal]
      | true =>
        -- Everything that follows is greater than the new item, so nothing there is its equal.
        have absent : (item :: rest).find? (fun z => order z y == .eq) = none := by
          refine List.find?_eq_none.mpr fun z member same => ?_
          have greater : order x z = .lt := by
            rcases List.mem_cons.mp member with rfl | member
            · exact before
            · exact Std.TransCmp.lt_trans before (first z member)
          have less := Std.TransCmp.lt_of_lt_of_eq greater (beq_iff_eq.mp same)
          rw [beq_iff_eq.mp equal] at less
          cases less
        rw [absent]
        simp [equal]
    · rename_i taken
      have alike : order x y = order item y := Std.TransCmp.congr_left taken
      cases equal : order item y == .eq <;> simp [alike, equal]
    · cases equal : order item y == .eq <;> simp [equal, ih later]

/-- Of the items that the order does not tell apart, the first one is kept. -/
theorem find?_sortedNew [Std.TransCmp order] :
    ((sortedNew order items).find? fun z => order z y == .eq) =
      items.find? fun z => order z y == .eq := by
  have collected (start : List α) (sorted : start.Pairwise fun a b => order a b = .lt) :
      ((items.foldl (fun sorted x => insertNew order x sorted) start).find? fun z =>
          order z y == .eq) =
        (start.find? fun z => order z y == .eq).or (items.find? fun z => order z y == .eq) := by
    induction items generalizing start with
    | nil => simp
    | cons item rest ih =>
      rw [List.foldl_cons, ih _ (pairwise_insertNew sorted), find?_insertNew sorted,
        Option.or_assoc, List.find?_cons]
      cases order item y == .eq <;> simp
  simpa [sortedNew] using collected [] .nil

/-- What is in a sorted list is found there. -/
theorem mem_iff_find?_of_pairwise [Std.TransCmp order]
    (sorted : items.Pairwise fun a b => order a b = .lt) :
    x ∈ items ↔ (items.find? fun z => order z x == .eq) = some x := by
  refine ⟨fun member => ?_, List.mem_of_find?_eq_some⟩
  induction items with
  | nil => cases member
  | cons item rest ih =>
    obtain ⟨first, later⟩ := List.pairwise_cons.mp sorted
    rw [List.find?_cons]
    rcases List.mem_cons.mp member with rfl | member
    · simp [Std.ReflCmp.compare_self]
    · simp [first x member, ih later member]

/-- In a sorted list it makes no difference from which end an item is looked for. -/
theorem find?_reverse_of_pairwise [Std.TransCmp order]
    (sorted : items.Pairwise fun a b => order a b = .lt) :
    (items.reverse.find? fun z => order z y == .eq) = items.find? fun z => order z y == .eq := by
  cases found : items.reverse.find? fun z => order z y == .eq with
  | none =>
    have absent := List.find?_eq_none.mp found
    exact (List.find?_eq_none.mpr fun z member => absent z (List.mem_reverse.mpr member)).symm
  | some z =>
    have equal : order z y = .eq := by simpa using List.find?_some found
    have member := List.mem_reverse.mp (List.mem_of_find?_eq_some found)
    rw [← (mem_iff_find?_of_pairwise sorted).mp member]
    have alike (w : α) : order w z = order w y := Std.TransCmp.congr_right equal
    simp only [alike]

/-- From the end of a sorted list the greatest item of a kind comes first. -/
theorem find?_reverse_eq_some_iff [Std.TransCmp order] {kind : α → Bool}
    (sorted : items.Pairwise fun a b => order a b = .lt) :
    items.reverse.find? kind = some x ↔
      x ∈ items ∧ kind x = true ∧ ∀ y ∈ items, kind y = true → order y x ≠ .gt := by
  constructor
  · intro found
    obtain ⟨named, after, before, split, others⟩ := List.find?_eq_some_iff_append.mp found
    have whole : items = before.reverse ++ x :: after.reverse := by
      rw [← List.reverse_reverse items, split]
      simp
    rw [whole] at sorted ⊢
    refine ⟨by simp, named, fun y member alike => ?_⟩
    rcases List.mem_append.mp member with earlier | later
    · rw [(List.pairwise_append.mp sorted).2.2 y earlier x List.mem_cons_self]
      decide
    · rcases List.mem_cons.mp later with rfl | later
      · have itself : order y y = .eq := Std.ReflCmp.compare_self
        rw [itself]
        decide
      · have other := others y (List.mem_reverse.mp later)
        rw [alike] at other
        cases other
  · rintro ⟨member, named, greatest⟩
    obtain ⟨before, after, rfl⟩ := List.append_of_mem member
    refine List.find?_eq_some_iff_append.mpr ⟨named, after.reverse, before.reverse, by simp, ?_⟩
    intro y later
    rw [List.mem_reverse] at later
    have less := (List.pairwise_cons.mp (List.pairwise_append.mp sorted).2.1).1 y later
    cases alike : kind y with
    | false => rfl
    | true => exact absurd (Std.OrientedCmp.gt_iff_lt.mpr less) (greatest y (by simp [later]) alike)

private theorem mem_of_mem_insertOver (member : y ∈ insertOver order x items) : y = x ∨ y ∈ items := by
  induction items with
  | nil => exact .inl (List.mem_singleton.mp member)
  | cons item rest ih =>
    rw [insertOver] at member
    split at member
    · exact List.mem_cons.mp member
    · exact (List.mem_cons.mp member).imp_right (List.mem_cons_of_mem _)
    · rcases List.mem_cons.mp member with rfl | member
      · exact .inr List.mem_cons_self
      · exact (ih member).imp_right (List.mem_cons_of_mem _)

/-- Items take the same places by what is read off them, if the order sees nothing else. -/
theorem map_insertOver {β : Type} {f : α → β} {other : β → β → Ordering}
    (same : ∀ a b, order a b = other (f a) (f b)) :
    (insertOver order x items).map f = insertOver other (f x) (items.map f) := by
  induction items with
  | nil => rfl
  | cons item rest ih =>
    rw [List.map_cons, insertOver, insertOver, ← same]
    cases order x item with
    | lt => rfl
    | eq => rfl
    | gt => exact congrArg (f item :: ·) ih

/-- An item takes its place in the order, or that of its equal. -/
theorem pairwise_insertOver [Std.TransCmp order]
    (sorted : items.Pairwise fun a b => order a b = .lt) :
    (insertOver order x items).Pairwise fun a b => order a b = .lt := by
  induction items with
  | nil => exact List.pairwise_singleton _ _
  | cons item rest ih =>
    obtain ⟨first, later⟩ := List.pairwise_cons.mp sorted
    rw [insertOver]
    split
    · rename_i before
      refine List.pairwise_cons.mpr ⟨List.forall_mem_cons.mpr ⟨before, fun y member => ?_⟩, sorted⟩
      exact Std.TransCmp.lt_trans before (first y member)
    · rename_i equal
      refine List.pairwise_cons.mpr ⟨fun y member => ?_, later⟩
      exact (Std.TransCmp.congr_left equal).trans (first y member)
    · rename_i after
      refine List.pairwise_cons.mpr ⟨fun y member => ?_, ih later⟩
      rcases mem_of_mem_insertOver member with rfl | member
      · exact Std.OrientedCmp.gt_iff_lt.mp after
      · exact first y member

/-- An item that is put over its equal is found in its place; any other item is found as before. -/
theorem find?_insertOver [Std.TransCmp order] :
    ((insertOver order x items).find? fun z => order z y == .eq) =
      if order x y == .eq then some x else items.find? fun z => order z y == .eq := by
  induction items with
  | nil => cases equal : order x y == .eq <;> simp [insertOver, equal]
  | cons item rest ih =>
    rw [insertOver]
    split
    · cases equal : order x y == .eq <;> simp [equal]
    · rename_i taken
      have alike : order x y = order item y := Std.TransCmp.congr_left taken
      cases equal : order item y == .eq <;> simp [alike, equal]
    · rename_i after
      rw [List.find?_cons, List.find?_cons, ih]
      cases found : order item y == .eq with
      | false => rfl
      | true =>
        -- The new item is greater than this one, so it is not equal to what this one is equal to.
        have greater : order x y = .gt := by
          rw [← after]
          exact (Std.TransCmp.congr_right (beq_iff_eq.mp found)).symm
        simp [greater]

theorem pairwise_sortedOver [Std.TransCmp order] :
    (sortedOver order items).Pairwise fun a b => order a b = .lt := by
  have collected (start : List α) (sorted : start.Pairwise fun a b => order a b = .lt) :
      (items.foldl (fun sorted x => insertOver order x sorted) start).Pairwise
        fun a b => order a b = .lt := by
    induction items generalizing start with
    | nil => exact sorted
    | cons item rest ih => exact ih _ (pairwise_insertOver sorted)
  exact collected [] .nil

/-- Of the items that the order does not tell apart, the last one is kept. -/
theorem find?_sortedOver [Std.TransCmp order] :
    ((sortedOver order items).find? fun z => order z y == .eq) =
      items.reverse.find? fun z => order z y == .eq := by
  have collected (start : List α) :
      ((items.foldl (fun sorted x => insertOver order x sorted) start).find? fun z => order z y == .eq) =
        (items.reverse.find? fun z => order z y == .eq).or (start.find? fun z => order z y == .eq) := by
    induction items generalizing start with
    | nil => rfl
    | cons item rest ih =>
      rw [List.foldl_cons, ih, find?_insertOver, List.reverse_cons, List.find?_append, Option.or_assoc]
      cases equal : order item y == .eq <;> simp [equal]
  rw [sortedOver, collected]
  exact Option.or_none

/-- Sorted items depend only on what is among them. -/
theorem sortedNew_congr [Std.TransCmp order] (lawful : ∀ a b, order a b = .eq → a = b)
    (same : ∀ x, x ∈ items ↔ x ∈ others) : sortedNew order items = sortedNew order others :=
  eq_of_pairwise_of_mem pairwise_sortedNew pairwise_sortedNew fun x => by
    rw [mem_sortedNew lawful, mem_sortedNew lawful, same]

end Sets

@[simp] theorem mem_nameSet {names : List String} {name : String} :
    name ∈ nameSet names ↔ name ∈ names :=
  mem_sortedNew fun _ _ => Std.LawfulEqOrd.eq_of_compare

theorem nodup_nameSet (names : List String) : (nameSet names).Nodup :=
  nodup_of_pairwise pairwise_sortedNew

/-- A set is what is in it. -/
theorem nameSet_congr {names others : List String} (same : ∀ name, name ∈ names ↔ name ∈ others) :
    nameSet names = nameSet others :=
  sortedNew_congr (fun _ _ => Std.LawfulEqOrd.eq_of_compare) same

/-- A table of sets is the pairs in it. -/
theorem nameTable_congr {pairs others : List (String × String)}
    (same : ∀ pair, pair ∈ pairs ↔ pair ∈ others) : nameTable pairs = nameTable others := by
  have mapped {f : String × String → String} {pairs others : List (String × String)}
      (same : ∀ pair, pair ∈ pairs ↔ pair ∈ others) :
      nameSet (pairs.map f) = nameSet (others.map f) :=
    nameSet_congr fun name => by simp only [List.mem_map, same]
  rw [nameTable, nameTable, mapped same]
  refine List.map_congr_left fun key _ => congrArg (Prod.mk key) (mapped fun pair => ?_)
  rw [List.mem_filter, List.mem_filter, same]

theorem mem_nameTable {pairs : List (String × String)} {entry : String × List String} :
    entry ∈ nameTable pairs ↔ entry.1 ∈ pairs.map Prod.fst ∧
      entry.2 = nameSet ((pairs.filter fun pair => pair.1 == entry.1).map Prod.snd) := by
  simp only [nameTable, List.mem_map, mem_nameSet]
  constructor
  · rintro ⟨key, present, rfl⟩
    exact ⟨present, rfl⟩
  · rintro ⟨present, names⟩
    exact ⟨entry.1, present, by rw [← names]⟩

/-- The names recorded under a key of a table of sets are those that were paired with it. -/
theorem mem_entry_nameTable {pairs : List (String × String)} {entry : String × List String}
    (present : entry ∈ nameTable pairs) {name : String} :
    name ∈ entry.2 ↔ (entry.1, name) ∈ pairs := by
  rw [(mem_nameTable.mp present).2, mem_nameSet, List.mem_map]
  constructor
  · rintro ⟨⟨key, column⟩, paired, rfl⟩
    obtain ⟨paired, same⟩ := List.mem_filter.mp paired
    rwa [← beq_iff_eq.mp same]
  · exact fun paired => ⟨_, List.mem_filter.mpr ⟨paired, beq_self_eq_true _⟩, rfl⟩

namespace Resolver
variable {r : Resolver} {s : Statement} {id : Option StatementId} {table name : String}

theorem mem_tables_resolve :
    table ∈ (r.resolve s id).access.tables ↔ table ∈ (s.read r).tables := mem_nameSet

theorem mem_columns_keys_resolve :
    table ∈ (r.resolve s id).access.columns.map Prod.fst ↔
      ∃ name, (table, name) ∈ (s.read r).columns := by
  simp [resolve, nameTable]

/-- What a resolution answers about a table is what its statement was found to read and
write there. -/
theorem mem_columnsOf_resolve :
    name ∈ (r.resolve s id).access.columnsOf table ↔ (table, name) ∈ (s.read r).columns := by
  unfold Access.columnsOf
  cases found : (r.resolve s id).access.columns.find? fun entry => entry.1 == table with
  | none =>
    have absent := List.find?_eq_none.mp found
    simp only [List.not_mem_nil, false_iff]
    intro paired
    have listed : table ∈ (r.resolve s id).access.columns.map Prod.fst :=
      mem_columns_keys_resolve.mpr ⟨name, paired⟩
    obtain ⟨entry, present, key⟩ := List.mem_map.mp listed
    exact absent entry present (beq_iff_eq.mpr key)
  | some entry =>
    have key : entry.1 = table := by simpa using List.find?_some found
    rw [← key]
    exact mem_entry_nameTable (List.mem_of_find?_eq_some found)

end Resolver
end TableAccess
