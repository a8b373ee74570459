/-!
# Sets of lines

The lines of one file that belong to a slice.  A set is kept as its members in ascending order, so two sets are equal
exactly when they have the same members (`LineSet.ext_mem`), whatever the order they came in.
-/
namespace SourceSlice

/-- The list with `n` put in its place, unless it is there. -/
def insertSorted (n : UInt32) : List UInt32 → List UInt32
  | [] => [n]
  | m :: rest => if n < m then n :: m :: rest else if n = m then m :: rest else m :: insertSorted n rest

theorem mem_insertSorted {n x : UInt32} : ∀ {l : List UInt32}, x ∈ insertSorted n l ↔ x = n ∨ x ∈ l
  | [] => by simp [insertSorted]
  | m :: rest => by
    unfold insertSorted
    split
    · simp
    · split
      · next h => subst h; simp
      · rw [List.mem_cons, List.mem_cons, mem_insertSorted]
        constructor
        · rintro (h | h | h) <;> simp [h]
        · rintro (h | h | h) <;> simp [h]

theorem pairwise_insertSorted {n : UInt32} :
    ∀ {l : List UInt32}, l.Pairwise (· < ·) → (insertSorted n l).Pairwise (· < ·)
  | [], _ => by simp [insertSorted]
  | m :: rest, h => by
    obtain ⟨hm, hr⟩ := List.pairwise_cons.1 h
    unfold insertSorted
    split
    next hlt =>
      refine List.pairwise_cons.2 ⟨fun x hx => ?_, h⟩
      rcases List.mem_cons.1 hx with rfl | hx
      · exact hlt
      · exact UInt32.lt_trans hlt (hm x hx)
    next hlt =>
      split
      · exact h
      next hne =>
        refine List.pairwise_cons.2 ⟨fun x hx => ?_, pairwise_insertSorted hr⟩
        rcases mem_insertSorted.1 hx with rfl | hx
        · rcases UInt32.lt_or_lt_of_ne hne with h | h
          · exact absurd h hlt
          · exact h
        · exact hm x hx

/-- A finite set of line numbers, its members in ascending order. -/
structure LineSet where
  toList : List UInt32
  sorted : toList.Pairwise (· < ·)
deriving DecidableEq, Repr

namespace LineSet

instance : EmptyCollection LineSet := ⟨⟨[], List.Pairwise.nil⟩⟩
instance : Inhabited LineSet := ⟨∅⟩
instance : Membership UInt32 LineSet := ⟨fun s n => n ∈ s.toList⟩
instance (n : UInt32) (s : LineSet) : Decidable (n ∈ s) := inferInstanceAs (Decidable (n ∈ s.toList))

def insert (n : UInt32) (s : LineSet) : LineSet := ⟨insertSorted n s.toList, pairwise_insertSorted s.sorted⟩

def erase (n : UInt32) (s : LineSet) : LineSet := ⟨s.toList.filter (· ≠ n), s.sorted.filter _⟩

def insertMany (ns : List UInt32) (s : LineSet) : LineSet := ns.foldl (fun s n => s.insert n) s

def ofList (ns : List UInt32) : LineSet := insertMany ns ∅

def size (s : LineSet) : Nat := s.toList.length

theorem mem_def {n : UInt32} {s : LineSet} : n ∈ s ↔ n ∈ s.toList := Iff.rfl

@[simp] theorem not_mem_empty (n : UInt32) : ¬ n ∈ (∅ : LineSet) := List.not_mem_nil

@[simp] theorem mem_insert {n x : UInt32} {s : LineSet} : x ∈ s.insert n ↔ x = n ∨ x ∈ s := mem_insertSorted

@[simp] theorem mem_erase {n x : UInt32} {s : LineSet} : x ∈ s.erase n ↔ x ∈ s ∧ x ≠ n := by
  simp [erase, mem_def]

@[simp] theorem mem_insertMany {x : UInt32} :
    ∀ {l : List UInt32} {s : LineSet}, x ∈ s.insertMany l ↔ x ∈ l ∨ x ∈ s
  | [], _ => by simp [insertMany]
  | n :: l, s => by
    have ih : x ∈ (s.insert n).insertMany l ↔ x ∈ l ∨ x ∈ s.insert n := mem_insertMany
    rw [mem_insert] at ih
    rw [List.mem_cons, show s.insertMany (n :: l) = (s.insert n).insertMany l from rfl, ih]
    constructor
    · rintro (h | h | h) <;> simp [h]
    · rintro ((h | h) | h) <;> simp [h]

theorem eq_of_sorted_of_mem_iff :
    ∀ {a b : List UInt32}, a.Pairwise (· < ·) → b.Pairwise (· < ·) → (∀ x, x ∈ a ↔ x ∈ b) → a = b
  | [], [], _, _, _ => rfl
  | [], y :: b, _, _, h => absurd ((h y).2 (by simp)) (by simp)
  | x :: a, [], _, _, h => absurd ((h x).1 (by simp)) (by simp)
  | x :: a, y :: b, ha, hb, h => by
    obtain ⟨hxa, ha'⟩ := List.pairwise_cons.1 ha
    obtain ⟨hyb, hb'⟩ := List.pairwise_cons.1 hb
    have hxy : x = y := by
      rcases List.mem_cons.1 ((h x).1 (by simp)) with e | e
      · exact e
      rcases List.mem_cons.1 ((h y).2 (by simp)) with e' | e'
      · exact e'.symm
      exact absurd (UInt32.lt_trans (hyb x e) (hxa y e')) (UInt32.lt_irrefl _)
    subst hxy
    refine congrArg (x :: ·) (eq_of_sorted_of_mem_iff ha' hb' fun z => ?_)
    constructor
    · intro hz
      rcases List.mem_cons.1 ((h z).1 (by simp [hz])) with rfl | e
      · exact absurd (hxa z hz) (UInt32.lt_irrefl _)
      · exact e
    · intro hz
      rcases List.mem_cons.1 ((h z).2 (by simp [hz])) with rfl | e
      · exact absurd (hyb z hz) (UInt32.lt_irrefl _)
      · exact e

/-- **Two sets with the same members are equal.** -/
theorem ext_mem {s t : LineSet} (h : ∀ x, x ∈ s ↔ x ∈ t) : s = t := by
  cases s; cases t
  simp only [mk.injEq]
  exact eq_of_sorted_of_mem_iff (by assumption) (by assumption) h

end LineSet
end SourceSlice
