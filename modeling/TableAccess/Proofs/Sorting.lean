import TableAccess.Sorted
import Mathlib.Data.List.Basic
import Mathlib.Data.List.Perm.Basic

/-! Sorting where the order leaves some items equal. Such items stay as they came, so what a list
looks like in order is decided by the runs of equal items in it, each for itself: lists that differ
only in how these runs are mixed are sorted alike. Items that are added to a list take their places
among the sorted ones, which stay in order around them. -/
namespace TableAccess

section
variable {α : Type}

/-- The items in increasing order; those that the order does not tell apart stay as they came. -/
def inOrder (order : α → α → Ordering) (items : List α) : List α :=
  items.mergeSort fun a b => order a b != .gt

/-- The items that the order does not tell apart from a given one, as they came. -/
def peers (order : α → α → Ordering) (x : α) (items : List α) : List α :=
  items.filter fun y => order x y == .eq

variable {order : α → α → Ordering} {items others : List α} {x y : α}

theorem mem_peers : y ∈ peers order x items ↔ y ∈ items ∧ order x y = .eq := by
  rw [peers, List.mem_filter, beq_iff_eq]

theorem peers_append :
    peers order x (items ++ others) = peers order x items ++ peers order x others :=
  List.filter_append ..

theorem perm_inOrder : (inOrder order items).Perm items := List.mergeSort_perm ..

variable [Std.TransCmp order]

private theorem notAfter_trans (a b c : α) (first : (order a b != .gt) = true)
    (second : (order b c != .gt) = true) : (order a c != .gt) = true := by
  have least : (order a b).isLE = true := Ordering.isLE_iff_ne_gt.mpr (bne_iff_ne.mp first)
  have most : (order b c).isLE = true := Ordering.isLE_iff_ne_gt.mpr (bne_iff_ne.mp second)
  exact bne_iff_ne.mpr (Ordering.isLE_iff_ne_gt.mp (Std.TransCmp.isLE_trans least most))

private theorem notAfter_total (a b : α) : ((order a b != .gt) || (order b a != .gt)) = true := by
  have swapped : order b a = (order a b).swap := Std.OrientedCmp.eq_swap
  rw [swapped]
  cases order a b <;> rfl

theorem pairwise_inOrder : (inOrder order items).Pairwise fun a b => order a b ≠ .gt :=
  (List.pairwise_mergeSort notAfter_trans notAfter_total items).imp bne_iff_ne.mp

/-- Sorting leaves equal items as they came. -/
theorem peers_inOrder : peers order x (inOrder order items) = peers order x items := by
  have alike : (peers order x items).Pairwise fun a b => (order a b != .gt) = true := by
    refine List.pairwise_of_forall_mem_list fun a first b second => ?_
    have same : order a b = .eq := Std.TransCmp.eq_trans
      (Std.OrientedCmp.eq_symm (mem_peers.mp first).2) (mem_peers.mp second).2
    rw [same]
    rfl
  have kept : (peers order x items).Sublist (inOrder order items) :=
    List.sublist_mergeSort notAfter_trans notAfter_total alike List.filter_sublist
  have own : peers order x (peers order x items) = peers order x items := by
    simp [peers]
  have within : (peers order x items).Sublist (peers order x (inOrder order items)) :=
    own ▸ kept.filter _
  exact (within.eq_of_length (perm_inOrder.filter _).length_eq.symm).symm

/-- Equal items keep what holds between items that follow one another. -/
theorem pairwise_inOrder_of_pairwise {R : α → α → Prop} (arranged : items.Pairwise R) :
    (inOrder order items).Pairwise fun a b => order a b = .lt ∨ (order a b = .eq ∧ R a b) := by
  refine List.pairwise_iff_forall_sublist.mpr fun {a b} part => ?_
  have notAfter : order a b ≠ .gt := List.pairwise_iff_forall_sublist.mp pairwise_inOrder part
  cases compared : order a b with
  | gt => exact absurd compared notAfter
  | lt => exact .inl rfl
  | eq =>
    have run : [a, b].Sublist (peers order a items) := by
      have kept := part.filter fun y => order a y == .eq
      rwa [List.filter_eq_self.mpr (by simp [compared, Std.ReflCmp.compare_self]), ← peers,
        peers_inOrder] at kept
    exact .inr ⟨rfl, List.pairwise_iff_forall_sublist.mp arranged (run.trans List.filter_sublist)⟩

/-- Lists in order are equal if the runs of equal items in them are. -/
theorem eq_of_peers (sorted : items.Pairwise fun a b => order a b ≠ .gt)
    (sorted' : others.Pairwise fun a b => order a b ≠ .gt)
    (same : ∀ x, peers order x items = peers order x others) : items = others := by
  have itself (a : α) (rest : List α) : a ∈ peers order a (a :: rest) :=
    mem_peers.mpr ⟨List.mem_cons_self, Std.ReflCmp.compare_self⟩
  induction items generalizing others with
  | nil =>
    cases others with
    | nil => rfl
    | cons b rest =>
      have present := itself b rest
      rw [← same b] at present
      cases present
  | cons a rest ih =>
    cases others with
    | nil =>
      have present := itself a rest
      rw [same a] at present
      cases present
    | cons b rest' =>
      obtain ⟨first, later⟩ := List.pairwise_cons.mp sorted
      obtain ⟨first', later'⟩ := List.pairwise_cons.mp sorted'
      -- Each of the two heads comes before the other one, so both are the first of their run.
      have atMost : order a b ≠ .gt := by
        have present := itself b rest'
        rw [← same b] at present
        rcases List.mem_cons.mp (mem_peers.mp present).1 with rfl | member
        · simp [Std.ReflCmp.compare_self]
        · exact first b member
      have atLeast : order b a ≠ .gt := by
        have present := itself a rest
        rw [same a] at present
        rcases List.mem_cons.mp (mem_peers.mp present).1 with rfl | member
        · simp [Std.ReflCmp.compare_self]
        · exact first' a member
      have equal : order a b = .eq := by
        cases compared : order a b with
        | eq => rfl
        | gt => exact absurd compared atMost
        | lt => exact absurd (Std.OrientedCmp.gt_iff_lt.mpr compared) atLeast
      have heads := same a
      rw [peers, peers, List.filter_cons_of_pos (by simp [Std.ReflCmp.compare_self]),
        List.filter_cons_of_pos (by simp [equal])] at heads
      obtain ⟨rfl, _⟩ := List.cons.inj heads
      refine congrArg (a :: ·) (ih later later' fun x => ?_)
      have whole := same x
      rw [peers, peers, List.filter_cons, List.filter_cons] at whole
      split at whole
      · exact (List.cons.inj whole).2
      · exact whole

/-- A list in order stays as it is. -/
theorem inOrder_inOrder : inOrder order (inOrder order items) = inOrder order items :=
  eq_of_peers pairwise_inOrder pairwise_inOrder fun _ => peers_inOrder

/-- Lists are sorted alike if the runs of equal items in them are the same. -/
theorem inOrder_congr (same : ∀ x, peers order x items = peers order x others) :
    inOrder order items = inOrder order others := by
  have equal (x : α) :
      peers order x (inOrder order items) = peers order x (inOrder order others) := by
    rw [peers_inOrder, peers_inOrder, same]
  exact eq_of_peers pairwise_inOrder pairwise_inOrder equal

/-- Where equal items come from one source only, the order of the sources makes no difference to the
runs of equal items. -/
theorem peers_flatMap_perm {β : Type} {f : β → List α} {sources reordered : List β}
    (permuted : sources.Perm reordered)
    (apart : ∀ s t, ∀ a ∈ f s, ∀ b ∈ f t, order a b = .eq → s = t) :
    peers order x (sources.flatMap f) = peers order x (reordered.flatMap f) := by
  induction permuted with
  | nil => rfl
  | cons s _ ih => rw [List.flatMap_cons, List.flatMap_cons, peers_append, peers_append, ih]
  | swap s t rest =>
    have exchanged : peers order x (f t) ++ peers order x (f s) =
        peers order x (f s) ++ peers order x (f t) := by
      cases first : peers order x (f t) with
      | nil => simp
      | cons a more =>
        cases second : peers order x (f s) with
        | nil => simp
        | cons b more' =>
          obtain ⟨fromT, sameT⟩ := mem_peers.mp (first ▸ List.mem_cons_self (a := a))
          obtain ⟨fromS, sameS⟩ := mem_peers.mp (second ▸ List.mem_cons_self (a := b))
          obtain rfl : t = s := apart t s a fromT b fromS
            (Std.TransCmp.eq_trans (Std.OrientedCmp.eq_symm sameT) sameS)
          rw [← first, ← second]
    simp only [List.flatMap_cons, peers_append, ← List.append_assoc, exchanged]
  | trans _ _ ih ih' => exact ih.trans ih'

variable (order) in
/-- An item in front goes behind those that are smaller. -/
theorem exists_inOrder_cons (x : α) (items : List α) : ∃ smaller larger,
    inOrder order (x :: items) = smaller ++ x :: larger ∧
      inOrder order items = smaller ++ larger ∧ ∀ b ∈ smaller, order x b = .gt := by
  have notAfter : ∀ a b c, (order a b != .gt) = true → (order b c != .gt) = true →
      (order a c != .gt) = true := notAfter_trans
  obtain ⟨smaller, larger, placed, split, front⟩ :=
    List.mergeSort_cons notAfter notAfter_total x items
  exact ⟨smaller, larger, placed, split, fun b member => by simpa using front b member⟩

/-- An item in front takes its place before those that are not smaller. -/
theorem inOrder_cons : inOrder order (x :: items) =
    (inOrder order items).filter (fun y => order x y == .gt) ++
      x :: (inOrder order items).filter fun y => order x y != .gt := by
  obtain ⟨smaller, larger, placed, split, before⟩ := exists_inOrder_cons order x items
  have sorted : (inOrder order (x :: items)).Pairwise fun a b => order a b ≠ .gt :=
    pairwise_inOrder
  rw [placed] at sorted
  have after : ∀ b ∈ larger, order x b ≠ .gt :=
    (List.pairwise_cons.mp (List.pairwise_append.mp sorted).2.1).1
  have first : (smaller ++ larger).filter (fun y => order x y == .gt) = smaller := by
    have all : ∀ b ∈ smaller, (order x b == .gt) = true := fun b member => by simp [before b member]
    have none_ : ∀ b ∈ larger, ¬(order x b == .gt) = true := fun b member => by simp [after b member]
    rw [List.filter_append, List.filter_eq_self.mpr all, List.filter_eq_nil_iff.mpr none_,
      List.append_nil]
  have last : (smaller ++ larger).filter (fun y => order x y != .gt) = larger := by
    have none_ : ∀ b ∈ smaller, ¬(order x b != .gt) = true := fun b member => by
      simp [before b member]
    have all : ∀ b ∈ larger, (order x b != .gt) = true := fun b member => by simp [after b member]
    rw [List.filter_append, List.filter_eq_nil_iff.mpr none_, List.filter_eq_self.mpr all,
      List.nil_append]
  rw [placed, split, first, last]

/-- What is added to a list takes its places among what was there. -/
theorem inOrder_sublist (part : items.Sublist others) :
    (inOrder order items).Sublist (inOrder order others) := by
  induction part with
  | slnil => exact List.Sublist.refl _
  | cons a part ih =>
    obtain ⟨smaller, larger, placed, split, _⟩ := exists_inOrder_cons order a _
    refine ih.trans ?_
    rw [placed, split]
    exact List.Sublist.append_left (List.sublist_cons_self a larger) smaller
  | cons_cons a part ih =>
    rw [inOrder_cons, inOrder_cons]
    exact (ih.filter _).append ((ih.filter _).cons_cons a)

end
end TableAccess
