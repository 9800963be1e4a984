import Mathlib.Data.List.Sort
import PhpLint.Ruleset
import PhpLint.Report

/-!
# Stable sorting of violations

Violations are put in the order of their places by a stable sort.  To sort a list with one more
element in front is to insert the element before the first one that does not come strictly earlier
(`List.exists_split_mergeSort`, `List.mergeSort_cons_of_split`).  From these two the rest follows by
induction: leaving elements out commutes with sorting, a list whose parts are in order is sorted part
by part, and what compares equal stays in the order it had.
-/

namespace List

variable {α : Type*} {le : α → α → Bool}

section Split

variable (trans : ∀ a b c, le a b = true → le b c = true → le a c = true)
  (total : ∀ a b, (le a b || le b a) = true)

include trans total

/-- Sorting puts the element in front before the first one that it does not come after. -/
theorem exists_split_mergeSort (a : α) (l : List α) :
    ∃ xs ys, l.mergeSort le = xs ++ ys ∧ (a :: l).mergeSort le = xs ++ a :: ys ∧
      (∀ b ∈ xs, le a b = false) ∧ ∀ b ∈ ys, le a b = true := by
  obtain ⟨xs, ys, hcons, hsorted, hbefore⟩ := mergeSort_cons trans total a l
  have hpairwise := pairwise_mergeSort trans total (a :: l)
  rw [hcons, pairwise_append, pairwise_cons] at hpairwise
  exact ⟨xs, ys, hsorted, hcons, fun b hb => by simpa using hbefore b hb, hpairwise.2.1.1⟩

/-- Where the sorted list falls into what comes before an element and what does not, the element is
inserted. -/
theorem mergeSort_cons_of_split {a : α} {l xs ys : List α} (h : l.mergeSort le = xs ++ ys)
    (hxs : ∀ b ∈ xs, le a b = false) (hys : ∀ b ∈ ys, le a b = true) :
    (a :: l).mergeSort le = xs ++ a :: ys := by
  obtain ⟨xs', ys', hsorted, hcons, hbefore, hbehind⟩ := exists_split_mergeSort trans total a l
  -- Both splits cut the sorted list behind the elements that come strictly before `a`.
  have hcut (us vs : List α) (hus : ∀ b ∈ us, le a b = false) (hvs : ∀ b ∈ vs, le a b = true) :
      (us ++ vs).filter (!le a ·) = us ∧ (us ++ vs).filter (le a ·) = vs := by
    rw [filter_append, filter_append, filter_eq_self.2 fun b hb => by simp [hus b hb],
      filter_eq_nil_iff.2 fun b hb => by simp [hvs b hb],
      filter_eq_nil_iff.2 fun b hb => by simp [hus b hb], filter_eq_self.2 hvs]
    simp
  have hsame : xs' ++ ys' = xs ++ ys := hsorted.symm.trans h
  have hfront : xs' = xs := by
    rw [← (hcut xs' ys' hbefore hbehind).1, ← (hcut xs ys hxs hys).1, hsame]
  have hback : ys' = ys := by
    rw [← (hcut xs' ys' hbefore hbehind).2, ← (hcut xs ys hxs hys).2, hsame]
  rw [hcons, hfront, hback]

/-- Leaving elements out before or after sorting is the same. -/
theorem filter_mergeSort (p : α → Bool) (l : List α) :
    (l.mergeSort le).filter p = (l.filter p).mergeSort le := by
  induction l with
  | nil => simp
  | cons a l ih =>
    obtain ⟨xs, ys, hsorted, hcons, hbefore, hbehind⟩ := exists_split_mergeSort trans total a l
    have hparts : (l.filter p).mergeSort le = xs.filter p ++ ys.filter p := by
      rw [← ih, hsorted, filter_append]
    rw [hcons, filter_append, filter_cons, filter_cons]
    split
    · symm
      apply mergeSort_cons_of_split trans total hparts
      · exact fun b hb => hbefore b (mem_of_mem_filter hb)
      · exact fun b hb => hbehind b (mem_of_mem_filter hb)
    · exact hparts.symm

/-- Of two lists in order, each is sorted by itself. -/
theorem mergeSort_append {xs ys : List α} (h : ∀ a ∈ xs, ∀ b ∈ ys, le a b = true) :
    (xs ++ ys).mergeSort le = xs.mergeSort le ++ ys.mergeSort le := by
  induction xs with
  | nil => simp
  | cons a xs ih =>
    obtain ⟨us, vs, hsorted, hcons, hbefore, hbehind⟩ := exists_split_mergeSort trans total a xs
    have hparts : (xs ++ ys).mergeSort le = us ++ (vs ++ ys.mergeSort le) := by
      rw [ih fun x hx => h x (mem_cons_of_mem a hx), hsorted, append_assoc]
    rw [cons_append, hcons, append_assoc, cons_append]
    apply mergeSort_cons_of_split trans total hparts hbefore
    intro b hb
    rcases mem_append.1 hb with hb | hb
    · exact hbehind b hb
    · exact h a mem_cons_self b (mem_mergeSort.1 hb)

/-- Of many lists in order, each is sorted by itself. -/
theorem mergeSort_flatMap {β : Type*} {f : β → List α} {l : List β}
    (h : l.Pairwise fun x y => ∀ a ∈ f x, ∀ b ∈ f y, le a b = true) :
    (l.flatMap f).mergeSort le = l.flatMap fun x => (f x).mergeSort le := by
  induction l with
  | nil => simp
  | cons x l ih =>
    obtain ⟨hfirst, hrest⟩ := pairwise_cons.1 h
    rw [flatMap_cons, flatMap_cons, mergeSort_append trans total, ih hrest]
    intro a ha b hb
    obtain ⟨y, hy, hb⟩ := mem_flatMap.1 hb
    exact hfirst y hy a ha b hb

/-- What compares equal stays in the order it had. -/
theorem pairwise_mergeSort_of_pairwise {R : α → α → Prop} {l : List α} (h : l.Pairwise R) :
    (l.mergeSort le).Pairwise fun a b => le a b = true ∧ (le b a = true → R a b) := by
  induction l with
  | nil => simp
  | cons a l ih =>
    obtain ⟨hfirst, hrest⟩ := pairwise_cons.1 h
    obtain ⟨xs, ys, hsorted, hcons, hbefore, hbehind⟩ := exists_split_mergeSort trans total a l
    have hparts := ih hrest
    rw [hsorted, pairwise_append] at hparts
    obtain ⟨hxs, hys, hbetween⟩ := hparts
    have hmem {b : α} (hb : b ∈ ys) : R a b := by
      have hsort : b ∈ l.mergeSort le := hsorted ▸ mem_append_right xs hb
      exact hfirst b (mem_mergeSort.1 hsort)
    rw [hcons, pairwise_append, pairwise_cons]
    refine ⟨hxs, ⟨fun b hb => ⟨hbehind b hb, fun _ => hmem hb⟩, hys⟩, ?_⟩
    intro b hb c hc
    rcases mem_cons.1 hc with rfl | hc
    · have htotal := total c b
      rw [hbefore b hb, Bool.false_or] at htotal
      exact ⟨htotal, fun hle => absurd hle (by simp [hbefore b hb])⟩
    · exact hbetween b hb c hc

end Split

end List

namespace PhpLint

/-! ## The orders of places -/

section Keys

variable {α β : Type*} (cmp : β → β → Ordering) [Std.TransCmp cmp] (key : α → β)

/-- What is ordered by a key is ordered. -/
theorem transCmp_of_key : Std.TransCmp fun a b => cmp (key a) (key b) where
  eq_swap := Std.OrientedCmp.eq_swap
  isLE_trans := Std.TransCmp.isLE_trans

theorem isLE_trans (a b c : α) (hab : (cmp (key a) (key b)).isLE = true)
    (hbc : (cmp (key b) (key c)).isLE = true) : (cmp (key a) (key c)).isLE = true :=
  Std.TransCmp.isLE_trans hab hbc

/-- An order by a key compares any two. -/
theorem isLE_total (a b : α) :
    ((cmp (key a) (key b)).isLE || (cmp (key b) (key a)).isLE) = true := by
  have hswap : cmp (key a) (key b) = (cmp (key b) (key a)).swap := Std.OrientedCmp.eq_swap
  rw [hswap]
  cases cmp (key b) (key a) <;> rfl

end Keys

instance : Std.TransCmp Component.order :=
  have : Std.TransCmp fun a b : Component => List.compareLex compare a.key b.key :=
    transCmp_of_key _ Component.key
  inferInstanceAs (Std.TransCmp (compareLex (compareOn Component.rank)
    fun a b => List.compareLex compare a.key b.key))

instance : Std.TransCmp FilePath.order := transCmp_of_key _ FilePath.components

instance : Std.TransCmp Location.lineOrder :=
  inferInstanceAs (Std.TransCmp (compareLex (compareOn Location.line) (compareOn Location.column)))

instance : Std.TransCmp Location.order :=
  have : Std.TransCmp fun a b : Location => a.file.order b.file := transCmp_of_key _ Location.file
  inferInstanceAs (Std.TransCmp (compareLex (fun a b : Location => a.file.order b.file)
    Location.lineOrder))

/-- Places are in order when their lines are, and their columns on one line. -/
theorem Location.isLE_lineOrder_iff {a b : Location} :
    (a.lineOrder b).isLE = true ↔ a.line < b.line ∨ a.line = b.line ∧ a.column ≤ b.column := by
  unfold Location.lineOrder
  rw [Ordering.isLE_then_iff_or]
  simp only [Nat.compare_eq_lt, Nat.compare_eq_eq, Nat.isLE_compare]

end PhpLint
