/-!
# What holds after an action

`After x s ok failed` says what holds once the action `x` has been run in the state
`s`: `ok` of its result and of the state it leaves, or `failed` of its failure and of
that state. Parsers and actions on sessions are both of this kind, so both are
reasoned about by the same few rules, one for each way to put an action together.
`Yields x fact` is the part of it that speaks of results alone.
-/

namespace Scriptlet

variable {ε σ α β : Type}

/-- What holds after an action. -/
def After (x : EStateM ε σ α) (s : σ) (ok : α → σ → Prop) (failed : ε → σ → Prop) : Prop :=
  match x s with
  | .ok a t => ok a t
  | .error e t => failed e t

variable {ok ok' : α → σ → Prop} {failed failed' : ε → σ → Prop} {s t : σ}

theorem After.mono {x : EStateM ε σ α} (h : After x s ok failed)
    (hok : ∀ a t, ok a t → ok' a t) (hfailed : ∀ e t, failed e t → failed' e t) :
    After x s ok' failed' := by
  unfold After at h ⊢
  cases hx : x s with
  | ok a t =>
      rw [hx] at h
      exact hok a t h
  | error e t =>
      rw [hx] at h
      exact hfailed e t h

theorem After.of_forall (x : EStateM ε σ α) (s : σ) (hok : ∀ a t, ok a t)
    (hfailed : ∀ e t, failed e t) : After x s ok failed := by
  unfold After
  cases x s with
  | ok a t => exact hok a t
  | error e t => exact hfailed e t

theorem After.of_ok {x : EStateM ε σ α} {a : α} (h : After x s ok failed) (hx : x s = .ok a t) :
    ok a t := by
  unfold After at h
  rw [hx] at h
  exact h

theorem After.of_error {x : EStateM ε σ α} {e : ε} (h : After x s ok failed)
    (hx : x s = .error e t) : failed e t := by
  unfold After at h
  rw [hx] at h
  exact h

/-- A success is the outcome of the action. -/
theorem After.eq_ok {x : EStateM ε σ α} (h : After x s ok failed) :
    After x s (fun a t => x s = .ok a t ∧ ok a t) failed := by
  unfold After at h ⊢
  cases hx : x s with
  | ok a t =>
      rw [hx] at h
      exact ⟨rfl, h⟩
  | error e t =>
      rw [hx] at h
      exact h

/-- After success, the next action goes on from there. -/
theorem bind_of_ok {x : EStateM ε σ β} {f : β → EStateM ε σ α} {b : β} (h : x s = .ok b t) :
    (x >>= f) s = f b t := by
  simp only [bind, EStateM.bind, h]

/-- After a failure, there is no next action. -/
theorem bind_of_error {x : EStateM ε σ β} {f : β → EStateM ε σ α} {e : ε}
    (h : x s = .error e t) : (x >>= f) s = .error e t := by
  simp only [bind, EStateM.bind, h]

/-- A sequence succeeds by its parts. -/
theorem exists_of_bind_ok {x : EStateM ε σ β} {f : β → EStateM ε σ α} {a : α}
    (h : (x >>= f) s = .ok a t) : ∃ b u, x s = .ok b u ∧ f b u = .ok a t := by
  cases hx : x s with
  | ok b u => exact ⟨b, u, rfl, by rwa [bind_of_ok hx] at h⟩
  | error e u =>
      rw [bind_of_error hx] at h
      cases h

/-- A sequence fails by one of its parts. -/
theorem error_of_bind {x : EStateM ε σ β} {f : β → EStateM ε σ α} {e : ε}
    (h : (x >>= f) s = .error e t) :
    x s = .error e t ∨ ∃ b u, x s = .ok b u ∧ f b u = .error e t := by
  cases hx : x s with
  | ok b u => exact .inr ⟨b, u, rfl, by rwa [bind_of_ok hx] at h⟩
  | error e' u =>
      rw [bind_of_error hx] at h
      cases h
      exact .inl rfl

/-- A sequence depends on its first action by the outcome only. -/
theorem bind_congr_left {x y : EStateM ε σ β} {f : β → EStateM ε σ α} (h : x s = y t) :
    (x >>= f) s = (y >>= f) t := by
  simp only [bind, EStateM.bind, h]

/-- A sequence depends on what follows only where the first action succeeds. -/
theorem bind_congr_right {x : EStateM ε σ β} {f g : β → EStateM ε σ α}
    (h : ∀ b t, x s = .ok b t → f b t = g b t) : (x >>= f) s = (x >>= g) s := by
  cases hx : x s with
  | ok b t => rw [bind_of_ok hx, bind_of_ok hx, h b t hx]
  | error e t => rw [bind_of_error hx, bind_of_error hx]

theorem discard_of_ok {x : EStateM ε σ β} {b : β} (h : x s = .ok b t) :
    discard x s = .ok () t := by
  change EStateM.map _ x s = _
  delta EStateM.map
  rw [h]

theorem discard_of_error {x : EStateM ε σ β} {e : ε} (h : x s = .error e t) :
    discard x s = .error e t := by
  change EStateM.map _ x s = _
  delta EStateM.map
  rw [h]

theorem exists_of_discard_ok {x : EStateM ε σ β} {u : Unit} (h : discard x s = .ok u t) :
    ∃ b, x s = .ok b t := by
  cases hx : x s with
  | ok b t' =>
      rw [discard_of_ok hx] at h
      cases h
      exact ⟨b, rfl⟩
  | error e t' =>
      rw [discard_of_error hx] at h
      cases h

theorem discard_bind (x : EStateM ε σ β) (f : β → EStateM ε σ α) :
    discard (x >>= f) = x >>= fun b => discard (f b) := by
  funext s
  cases hx : x s with
  | ok b t =>
      rw [bind_of_ok hx]
      change EStateM.map _ _ s = EStateM.map _ _ t
      simp only [EStateM.map, bind_of_ok hx]
  | error e t =>
      rw [bind_of_error hx]
      exact discard_of_error (bind_of_error hx)

theorem tryCatch_of_ok {x : EStateM ε σ α} {handle : ε → EStateM ε σ α} {a : α}
    (h : x s = .ok a t) : tryCatch x handle s = .ok a t := by
  change EStateM.tryCatch x handle s = _
  delta EStateM.tryCatch
  rw [h]

theorem tryCatch_of_error {x : EStateM ε σ α} {handle : ε → EStateM ε σ α} {e : ε}
    (h : x s = .error e t) : tryCatch x handle s = handle e t := by
  change EStateM.tryCatch x handle s = _
  delta EStateM.tryCatch
  rw [h]
  rfl

@[simp] theorem after_pure (a : α) :
    After (pure a : EStateM ε σ α) s ok failed ↔ ok a s :=
  Iff.rfl

@[simp] theorem after_throw (e : ε) :
    After (throw e : EStateM ε σ α) s ok failed ↔ failed e s :=
  Iff.rfl

@[simp] theorem after_bind (x : EStateM ε σ β) (f : β → EStateM ε σ α) :
    After (x >>= f) s ok failed ↔ After x s (fun b t => After (f b) t ok failed) failed := by
  unfold After
  simp only [bind, EStateM.bind]
  cases x s with
  | ok b t => rfl
  | error e t => rfl

@[simp] theorem after_map (f : β → α) (x : EStateM ε σ β) :
    After (f <$> x) s ok failed ↔ After x s (fun b t => ok (f b) t) failed := by
  unfold After
  simp only [Functor.map, EStateM.map]
  cases x s with
  | ok b t => rfl
  | error e t => rfl

@[simp] theorem after_discard {ok : Unit → σ → Prop} (x : EStateM ε σ β) :
    After (discard x) s ok failed ↔ After x s (fun _ t => ok () t) failed :=
  after_map (fun _ => ()) x

@[simp] theorem after_get {ok : σ → σ → Prop} :
    After (get : EStateM ε σ σ) s ok failed ↔ ok s s :=
  Iff.rfl

@[simp] theorem after_set {ok : PUnit → σ → Prop} (t : σ) :
    After (set t : EStateM ε σ PUnit) s ok failed ↔ ok ⟨⟩ t :=
  Iff.rfl

@[simp] theorem after_modify {ok : PUnit → σ → Prop} (f : σ → σ) :
    After (modify f : EStateM ε σ PUnit) s ok failed ↔ ok ⟨⟩ (f s) :=
  Iff.rfl

@[simp] theorem after_modifyGet (f : σ → α × σ) :
    After (modifyGet f : EStateM ε σ α) s ok failed ↔ ok (f s).1 (f s).2 :=
  Iff.rfl

@[simp] theorem after_tryCatch (x : EStateM ε σ α) (handle : ε → EStateM ε σ α) :
    After (tryCatch x handle) s ok failed ↔
      After x s ok fun e t => After (handle e) t ok failed := by
  unfold After
  cases hx : x s with
  | ok a t => rw [tryCatch_of_ok hx]
  | error e t => rw [tryCatch_of_error hx]

/-! ### Results only -/

/-- Whether every result of an action satisfies `fact`, from whatever state it is run. -/
def Yields (x : EStateM ε σ α) (fact : α → Prop) : Prop :=
  ∀ s, After x s (fun a _ => fact a) fun _ _ => True

namespace Yields

variable {x : EStateM ε σ α} {fact fact' : α → Prop} {next : β → Prop}

theorem of_ok {a : α} (h : Yields x fact) (hx : x s = .ok a t) : fact a :=
  (h s).of_ok hx

theorem of (x : EStateM ε σ α) (h : ∀ a, fact a) : Yields x fact :=
  fun s => After.of_forall x s (fun a _ => h a) fun _ _ => trivial

theorem any (x : EStateM ε σ α) : Yields x fun _ => True :=
  of x fun _ => trivial

theorem pure {a : α} (h : fact a) : Yields (pure a : EStateM ε σ α) fact :=
  fun _ => h

theorem throw (e : ε) : Yields (throw e : EStateM ε σ α) fact :=
  fun _ => trivial

theorem bind {f : α → EStateM ε σ β} (hx : Yields x fact)
    (hf : ∀ a, fact a → Yields (f a) next) : Yields (x >>= f) next := by
  intro s
  rw [after_bind]
  exact (hx s).mono (fun a t h => hf a h t) fun _ _ h => h

theorem map (f : α → β) (hx : Yields x fun a => next (f a)) : Yields (f <$> x) next := by
  intro s
  rw [after_map]
  exact hx s

theorem mono (hx : Yields x fact) (h : ∀ a, fact a → fact' a) : Yields x fact' :=
  fun s => (hx s).mono (fun a _ => h a) fun _ _ h => h

end Yields

end Scriptlet
