/-!
# Association lists

A list of keys with values, of which the first one for a key counts.  Files by their places and answers by their
questions are kept this way.
-/
namespace SourceSlice.Association

variable {κ α : Type} [DecidableEq κ]

/-- **The value of a key**: that of its first pair. -/
def get? (k : κ) : List (κ × α) → Option α
  | [] => none
  | (j, a) :: rest => if j = k then some a else get? k rest

def erase (k : κ) (l : List (κ × α)) : List (κ × α) := l.filter (·.1 ≠ k)

/-- Keeping the pairs of some keys keeps what these keys have. -/
theorem get?_filter (p : κ → Bool) (k : κ) : ∀ l : List (κ × α),
    get? k (l.filter fun entry => p entry.1) = if p k then get? k l else none
  | [] => by simp [get?]
  | (j, a) :: rest => by
    have ih := get?_filter p k rest
    by_cases hj : j = k
    · subst hj
      by_cases hp : p j = true
      · rw [List.filter_cons_of_pos (by exact hp), get?, get?, if_pos rfl, if_pos rfl, if_pos hp]
      · rw [List.filter_cons_of_neg (by exact hp), ih, if_neg hp, if_neg hp]
    · by_cases hp : p j = true
      · rw [List.filter_cons_of_pos (by exact hp), get?, get?, if_neg hj, if_neg hj, ih]
      · rw [List.filter_cons_of_neg (by exact hp), ih, get?, if_neg hj]

theorem get?_erase_of_ne {j k : κ} (h : j ≠ k) (l : List (κ × α)) : get? j (erase k l) = get? j l := by
  have hfilter := get?_filter (fun i => decide (i ≠ k)) j l
  rwa [if_pos (decide_eq_true h)] at hfilter

theorem mem_of_get? {k : κ} {a : α} : ∀ {l : List (κ × α)}, get? k l = some a → (k, a) ∈ l
  | (j, b) :: rest, h => by
    rw [get?] at h
    split at h
    next hj =>
      rw [← hj, ← Option.some.inj h]
      exact List.mem_cons_self
    next => exact List.mem_cons_of_mem _ (mem_of_get? h)

/-- A pair put at the end counts only when its key had no pair before. -/
theorem get?_append (k : κ) (m : List (κ × α)) : ∀ l : List (κ × α), get? k (l ++ m) = (get? k l).or (get? k m)
  | [] => by simp [get?]
  | (j, a) :: rest => by
    rw [List.cons_append, get?, get?, get?_append k m rest]
    split <;> simp

/-- Changing all values changes the one that is found. -/
theorem get?_map {β : Type} (f : α → β) (k : κ) : ∀ l : List (κ × α),
    get? k (l.map fun entry => (entry.1, f entry.2)) = (get? k l).map f
  | [] => rfl
  | (j, a) :: rest => by
    rw [List.map_cons, get?, get?, get?_map f k rest]
    split <;> rfl

end SourceSlice.Association
