/-!
# How work ends

Opening a database and carrying out a command are work on a state, which may fail and moves the state on either way.
`Work.Ends` says what holds when such work is done and what when it fails; `Ends.bind` takes a series of steps apart.
`Work.Both` does so for two works side by side, which must end in the same way.
-/
namespace SourceSlice.Work

variable {ε τ α β : Type} {work : EStateM ε τ α} {next : α → EStateM ε τ β} {s t : τ} {a : α} {e : ε}

theorem bind_of_ok (h : work s = .ok a t) : (work >>= next) s = next a t := by
  change EStateM.bind work next s = next a t
  rw [EStateM.bind, h]

theorem bind_of_error (h : work s = .error e t) : (work >>= next) s = .error e t := by
  change EStateM.bind work next s = .error e t
  rw [EStateM.bind, h]

theorem bind_eq_of_eq (h : work s = work t) : (work >>= next) s = (work >>= next) t := by
  change EStateM.bind work next s = EStateM.bind work next t
  rw [EStateM.bind, EStateM.bind, h]

theorem bind_eq_of_work_eq {work' : EStateM ε τ α} (h : work s = work' s) : (work >>= next) s = (work' >>= next) s := by
  change EStateM.bind work next s = EStateM.bind work' next s
  rw [EStateM.bind, EStateM.bind, h]

theorem tryCatch_of_ok {handle : ε → EStateM ε τ α} (h : work s = .ok a t) : tryCatch work handle s = .ok a t := by
  change EStateM.tryCatch work handle s = _
  delta EStateM.tryCatch
  dsimp only
  rw [h]

theorem tryCatch_of_error {handle : ε → EStateM ε τ α} (h : work s = .error e t) :
    tryCatch work handle s = handle e t := by
  change EStateM.tryCatch work handle s = _
  delta EStateM.tryCatch
  dsimp only
  rw [h]
  rfl

/-- **How work on a state ends**: with a result and a state as `done` says, or with an error and a state as `failed`
says. -/
def Ends (work : EStateM ε τ α) (s : τ) (done : α → τ → Prop) (failed : ε → τ → Prop) : Prop :=
  match work s with
  | .ok a t => done a t
  | .error e t => failed e t

variable {done done' : α → τ → Prop} {after : β → τ → Prop} {failed failed' : ε → τ → Prop}

theorem Ends.of_ok (h : Ends work s done failed) (hw : work s = .ok a t) : done a t := by
  rw [Ends, hw] at h
  exact h

theorem Ends.of_error (h : Ends work s done failed) (hw : work s = .error e t) : failed e t := by
  rw [Ends, hw] at h
  exact h

theorem ends_of_ok (hw : work s = .ok a t) (h : done a t) : Ends work s done failed := by
  rw [Ends, hw]
  exact h

theorem ends_of_error (hw : work s = .error e t) (h : failed e t) : Ends work s done failed := by
  rw [Ends, hw]
  exact h

theorem ends_self (work : EStateM ε τ α) (s : τ) :
    Ends work s (fun a t => work s = .ok a t) (fun e t => work s = .error e t) := by
  unfold Ends
  cases work s with
  | ok a t => rfl
  | error e t => rfl

theorem ends_pure : Ends (pure a) s done failed ↔ done a s := Iff.rfl

theorem ends_get {done : τ → τ → Prop} : Ends (get : EStateM ε τ τ) s done failed ↔ done s s := Iff.rfl

theorem ends_set {done : PUnit → τ → Prop} : Ends (set t : EStateM ε τ PUnit) s done failed ↔ done ⟨⟩ t := Iff.rfl

theorem ends_modify {done : PUnit → τ → Prop} {f : τ → τ} :
    Ends (modify f : EStateM ε τ PUnit) s done failed ↔ done ⟨⟩ (f s) := Iff.rfl

theorem Ends.bind (h : Ends work s (fun a t => Ends (next a) t after failed) failed) :
    Ends (work >>= next) s after failed := by
  cases hw : work s with
  | ok a t =>
    have hnext := h.of_ok hw
    rw [Ends, bind_of_ok hw]
    exact hnext
  | error e t => exact ends_of_error (bind_of_error hw) (h.of_error hw)

theorem Ends.imp (h : Ends work s done failed) (hdone : ∀ a t, done a t → done' a t)
    (hfailed : ∀ e t, failed e t → failed' e t) : Ends work s done' failed' := by
  cases hw : work s with
  | ok a t => exact ends_of_ok hw (hdone a t (h.of_ok hw))
  | error e t => exact ends_of_error hw (hfailed e t (h.of_error hw))

theorem Ends.and (h : Ends work s done failed) (h' : Ends work s done' failed') :
    Ends work s (fun a t => done a t ∧ done' a t) (fun e t => failed e t ∧ failed' e t) := by
  cases hw : work s with
  | ok a t => exact ends_of_ok hw ⟨h.of_ok hw, h'.of_ok hw⟩
  | error e t => exact ends_of_error hw ⟨h.of_error hw, h'.of_error hw⟩

abbrev EndsIn (work : EStateM ε τ α) (s : τ) (kept : τ → Prop) : Prop := Ends work s (fun _ => kept) fun _ => kept

/-! ## Two works side by side -/

/-- **Two works end in the same way**: both with results and states as `done` says, or both with the same error and
states as `failed` says. -/
def Both (work work' : EStateM ε τ α) (s s' : τ) (done : α → τ → α → τ → Prop) (failed : τ → τ → Prop) : Prop :=
  match work s, work' s' with
  | .ok a t, .ok a' t' => done a t a' t'
  | .error e t, .error e' t' => e' = e ∧ failed t t'
  | _, _ => False

section Both

variable {work work' : EStateM ε τ α} {next next' : α → EStateM ε τ β} {s s' t t' : τ} {a a' : α} {e : ε}
  {done done' : α → τ → α → τ → Prop} {after : β → τ → β → τ → Prop} {failed failed' : τ → τ → Prop}

theorem both_of_ok (hw : work s = .ok a t) (hw' : work' s' = .ok a' t') (h : done a t a' t') :
    Both work work' s s' done failed := by
  rw [Both, hw, hw']
  exact h

theorem both_of_error (hw : work s = .error e t) (hw' : work' s' = .error e t') (h : failed t t') :
    Both work work' s s' done failed := by
  rw [Both, hw, hw']
  exact ⟨rfl, h⟩

theorem Both.cases (h : Both work work' s s' done failed) :
    (∃ a t a' t', work s = .ok a t ∧ work' s' = .ok a' t' ∧ done a t a' t') ∨
      ∃ e t t', work s = .error e t ∧ work' s' = .error e t' ∧ failed t t' := by
  unfold Both at h
  cases hw : work s with
  | ok a t =>
    cases hw' : work' s' with
    | ok a' t' => rw [hw, hw'] at h; exact .inl ⟨a, t, a', t', rfl, rfl, h⟩
    | error e t' => rw [hw, hw'] at h; exact h.elim
  | error e t =>
    cases hw' : work' s' with
    | ok a' t' => rw [hw, hw'] at h; exact h.elim
    | error e' t' =>
      rw [hw, hw'] at h
      obtain ⟨rfl, h⟩ := h
      exact .inr ⟨e', t, t', rfl, rfl, h⟩

theorem Both.bind (h : Both work work' s s' (fun a t a' t' => Both (next a) (next' a') t t' after failed) failed) :
    Both (work >>= next) (work' >>= next') s s' after failed := by
  rcases h.cases with ⟨a, t, a', t', hw, hw', h⟩ | ⟨e, t, t', hw, hw', h⟩
  · rw [Both, bind_of_ok hw, bind_of_ok hw']
    exact h
  · exact both_of_error (bind_of_error hw) (bind_of_error hw') h

theorem Both.imp (h : Both work work' s s' done failed)
    (hdone : ∀ a t a' t', done a t a' t' → done' a t a' t') (hfailed : ∀ t t', failed t t' → failed' t t') :
    Both work work' s s' done' failed' := by
  rcases h.cases with ⟨a, t, a', t', hw, hw', h⟩ | ⟨e, t, t', hw, hw', h⟩
  · exact both_of_ok hw hw' (hdone _ _ _ _ h)
  · exact both_of_error hw hw' (hfailed _ _ h)

theorem Both.and {kept kept' : τ → Prop} (h : Both work work' s s' done failed) (hw : EndsIn work s kept)
    (hw' : EndsIn work' s' kept') :
    Both work work' s s' (fun a t a' t' => done a t a' t' ∧ kept t ∧ kept' t')
      (fun t t' => failed t t' ∧ kept t ∧ kept' t') := by
  rcases h.cases with ⟨a, t, a', t', hok, hok', h⟩ | ⟨e, t, t', herror, herror', h⟩
  · exact both_of_ok hok hok' ⟨h, hw.of_ok hok, hw'.of_ok hok'⟩
  · exact both_of_error herror herror' ⟨h, hw.of_error herror, hw'.of_error herror'⟩

theorem both_get_bind {next next' : τ → EStateM ε τ β} :
    Both (get >>= next) (get >>= next') s s' after failed ↔ Both (next s) (next' s') s s' after failed := Iff.rfl

end Both

theorem mapM_eq_pure {m : Type → Type} [Monad m] [LawfulMonad m] {f : α → m β} {g : α → β} : ∀ {l : List α},
    (∀ a ∈ l, f a = pure (g a)) → l.mapM f = pure (l.map g)
  | [], _ => List.mapM_nil
  | a :: rest, h => by
    rw [List.mapM_cons, h a List.mem_cons_self, mapM_eq_pure fun b hb => h b (List.mem_cons_of_mem _ hb), pure_bind,
      pure_bind, List.map_cons]

theorem exists_first_not {p : α → Prop} : ∀ {l : List α}, ¬ (∀ a ∈ l, p a) →
    ∃ before a after, l = before ++ a :: after ∧ (∀ b ∈ before, p b) ∧ ¬ p a
  | [], h => absurd nofun h
  | a :: rest, h => by
    by_cases ha : p a
    · have hrest : ¬ ∀ b ∈ rest, p b := fun hrest => h (List.forall_mem_cons.2 ⟨ha, hrest⟩)
      obtain ⟨before, b, after, rfl, hbefore, hb⟩ := exists_first_not hrest
      exact ⟨a :: before, b, after, rfl, List.forall_mem_cons.2 ⟨ha, hbefore⟩, hb⟩
    · exact ⟨[], a, rest, rfl, nofun, ha⟩

end SourceSlice.Work
