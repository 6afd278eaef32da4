/-
# Stateful procedures that may fail

A procedure reads and writes a state and either returns a value or fails. Its
failures do not roll the state back: whatever was written before one stays
written. Code that is meant to be atomic has to earn it, and the lemmas here keep
the state on both sides visible.

`exec` runs a procedure from a state, and `Ensures` says what holds of its outcome:
one predicate for a value and the state it comes with, one for a failure and the
state it leaves behind. The rules follow the ways a body is built, so a proof about
an operation walks through the operation line by line.
-/

import Mathlib.Tactic

/-- A procedure over a state `σ` that fails with an `ε` or returns an `α`. -/
abbrev Proc (σ ε α : Type) := ExceptT ε (StateM σ) α

namespace Proc

variable {σ ε ε' α β : Type}

/-- Run a procedure: its result, and the state it leaves. -/
def exec (x : Proc σ ε α) (s : σ) : Except ε α × σ := StateT.run (ExceptT.run x) s

/-- The value of an option, or a failure when there is none. -/
def okOr (o : Option α) (e : ε) : Proc σ ε α :=
  match o with
  | some a => pure a
  | none => throw e

/-- A check that reads no state. -/
def require (x : Except ε α) : Proc σ ε α :=
  match x with
  | .ok a => pure a
  | .error e => throw e

/-- A procedure whose failures are renamed. -/
def mapError (f : ε → ε') (x : Proc σ ε α) : Proc σ ε' α := ExceptT.mk do
  match ← ExceptT.run x with
  | .ok a => pure (.ok a)
  | .error e => pure (.error (f e))

/-- What follows a result: go on after a value, stop after a failure. -/
def next (r : Except ε α × σ) (k : α → σ → Except ε β × σ) : Except ε β × σ :=
  match r with
  | (.ok a, s) => k a s
  | (.error e, s) => (.error e, s)

@[simp]
theorem next_ok (a : α) (s : σ) (k : α → σ → Except ε β × σ) :
    next (.ok a, s) k = k a s := rfl

@[simp]
theorem next_error (e : ε) (s : σ) (k : α → σ → Except ε β × σ) :
    next (.error e, s) k = (.error e, s) := rfl

@[simp]
theorem exec_pure (a : α) (s : σ) : exec (pure a : Proc σ ε α) s = (.ok a, s) := rfl

@[simp]
theorem exec_throw (e : ε) (s : σ) : exec (throw e : Proc σ ε α) s = (.error e, s) := rfl

@[simp]
theorem exec_bind (x : Proc σ ε α) (f : α → Proc σ ε β) (s : σ) :
    exec (x >>= f) s = next (exec x s) fun a s' => exec (f a) s' := by
  simp only [exec, ExceptT.run_bind, StateT.run_bind]
  obtain ⟨r, s'⟩ := StateT.run (ExceptT.run x) s
  cases r with
  | ok a => rfl
  | error e => rfl

@[simp]
theorem exec_get (s : σ) : exec (get : Proc σ ε σ) s = (.ok s, s) := rfl

@[simp]
theorem exec_set (s s' : σ) : exec (set s' : Proc σ ε PUnit) s = (.ok ⟨⟩, s') := rfl

@[simp]
theorem exec_require (x : Except ε α) (s : σ) :
    exec (require x : Proc σ ε α) s = (x, s) := by
  cases x with
  | ok a => rfl
  | error e => rfl

@[simp]
theorem exec_mapError (f : ε → ε') (x : Proc σ ε α) (s : σ) :
    exec (mapError f x) s = ((exec x s).1.mapError f, (exec x s).2) := by
  simp only [exec, mapError, ExceptT.run_mk, StateT.run_bind]
  obtain ⟨r, s'⟩ := StateT.run (ExceptT.run x) s
  cases r with
  | ok a => rfl
  | error e => rfl

@[simp]
theorem exec_tryCatch (x : Proc σ ε α) (handler : ε → Proc σ ε α) (s : σ) :
    exec (tryCatch x handler) s =
      match exec x s with
      | (.ok a, s') => (.ok a, s')
      | (.error e, s') => exec (handler e) s' := by
  have hrun : exec (tryCatch x handler) s =
      StateT.run (ExceptT.run x >>= fun r =>
        match r with
        | .ok a => pure (.ok a)
        | .error e => ExceptT.run (handler e)) s := rfl
  rw [hrun, StateT.run_bind, exec]
  obtain ⟨r, s'⟩ := StateT.run (ExceptT.run x) s
  cases r with
  | ok a => rfl
  | error e => rfl

@[simp]
theorem exec_ite (c : Prop) [Decidable c] (x y : Proc σ ε α) (s : σ) :
    exec (if c then x else y) s = if c then exec x s else exec y s := by
  split <;> rfl

/-- Run from `s`, the procedure returns a value and a state that `Q` accepts, or
fails in a way that `E` accepts. -/
def Ensures (x : Proc σ ε α) (s : σ) (E : ε → σ → Prop) (Q : α → σ → Prop) : Prop :=
  match exec x s with
  | (.ok a, s') => Q a s'
  | (.error e, s') => E e s'

namespace Ensures

variable {E : ε → σ → Prop} {P : α → σ → Prop} {Q : β → σ → Prop} {s s' : σ}
variable {x : Proc σ ε α} {f : α → Proc σ ε β}

theorem of_ok {a : α} (h : Ensures x s E P) (hexec : exec x s = (.ok a, s')) :
    P a s' := by
  rw [Ensures, hexec] at h
  exact h

theorem of_error {e : ε} (h : Ensures x s E P) (hexec : exec x s = (.error e, s')) : E e s' := by
  rw [Ensures, hexec] at h
  exact h

theorem mono {E' : ε → σ → Prop} {P' : α → σ → Prop} (h : Ensures x s E P)
    (herror : ∀ e s', E e s' → E' e s') (hok : ∀ a s', P a s' → P' a s') :
    Ensures x s E' P' := by
  unfold Ensures at h ⊢
  split at h
  · exact hok _ _ h
  · exact herror _ _ h

theorem and {E' : ε → σ → Prop} {P' : α → σ → Prop} (h : Ensures x s E P) (h' : Ensures x s E' P') :
    Ensures x s (fun e s' => E e s' ∧ E' e s') fun a s' => P a s' ∧ P' a s' := by
  unfold Ensures at h h' ⊢
  split at h
  · rename_i a s' heq
    rw [heq] at h'
    exact ⟨h, h'⟩
  · rename_i e s' heq
    rw [heq] at h'
    exact ⟨h, h'⟩

/-- Sequencing: the rest starts from whatever the first part left. -/
theorem bind (hx : Ensures x s E P)
    (hf : ∀ a s', P a s' → Ensures (f a) s' E Q) : Ensures (x >>= f) s E Q := by
  unfold Ensures at hx
  rw [Ensures, exec_bind]
  split at hx
  · rename_i a s' heq
    rw [heq]
    exact hf a s' hx
  · rename_i e s' heq
    rw [heq]
    exact hx

/-- A first part that always returns. -/
theorem bind_ok {a : α} (hexec : exec x s = (.ok a, s'))
    (hf : Ensures (f a) s' E Q) : Ensures (x >>= f) s E Q := by
  rw [Ensures, exec_bind, hexec]
  exact hf

theorem require_bind {c : Except ε α}
    (herror : ∀ e, c = .error e → E e s) (hok : ∀ a, c = .ok a → Ensures (f a) s E Q) :
    Ensures (require c >>= f) s E Q := by
  rw [Ensures, exec_bind, exec_require]
  cases c with
  | ok a => exact hok a rfl
  | error e => exact herror e rfl

theorem okOr_bind {o : Option α} {e : ε}
    (herror : o = none → E e s) (hok : ∀ a, o = some a → Ensures (f a) s E Q) :
    Ensures (okOr o e >>= f) s E Q := by
  rw [Ensures, exec_bind]
  cases o with
  | some a => exact hok a rfl
  | none => exact herror rfl

/-- A check that passes, and an entity that is there. -/
theorem require_ok {c : Except ε α} {a : α} (h : c = .ok a) (hf : Ensures (f a) s E Q) :
    Ensures (require c >>= f) s E Q := by
  subst h
  exact .require_bind (fun e he => by cases he) fun a' ha => by
    cases ha
    exact hf

theorem okOr_some {o : Option α} {a : α} {e : ε} (h : o = some a) (hf : Ensures (f a) s E Q) :
    Ensures (okOr o e >>= f) s E Q := by
  subst h
  exact .okOr_bind (fun hnone => by cases hnone) fun a' ha => by
    cases ha
    exact hf

/-- A failing check in front of the rest of a body. -/
theorem guard {c : Prop} [Decidable c] {e : ε} {y : Proc σ ε β}
    (herror : c → E e s) (hok : ¬ c → Ensures y s E Q) :
    Ensures (if c then throw e >>= f else y) s E Q := by
  rw [Ensures, exec_ite]
  split_ifs with hc
  · exact herror hc
  · exact hok hc

theorem ite {c : Prop} [Decidable c] {x y : Proc σ ε β} (hthen : c → Ensures x s E Q)
    (helse : ¬ c → Ensures y s E Q) : Ensures (if c then x else y) s E Q := by
  split_ifs with hc
  · exact hthen hc
  · exact helse hc

theorem mapError {f : ε → ε'} {E' : ε' → σ → Prop}
    (h : Ensures x s (fun e s' => E' (f e) s') P) : Ensures (Proc.mapError f x) s E' P := by
  rw [Ensures, exec_mapError]
  unfold Ensures at h
  split at h
  · rename_i a s' heq
    rw [heq]
    exact h
  · rename_i e s' heq
    rw [heq]
    exact h

/-- A body with a handler: the handler runs from the state the failure left. -/
theorem tryCatch {handler : ε → Proc σ ε α} {E₁ : ε → σ → Prop}
    (hx : Ensures x s E₁ P) (hhandler : ∀ e s', E₁ e s' → Ensures (handler e) s' E P) :
    Ensures (MonadExcept.tryCatch x handler) s E P := by
  rw [Ensures, exec_tryCatch]
  unfold Ensures at hx
  split at hx
  · exact hx
  · exact hhandler _ _ hx

end Ensures

/-- Run from `s`, `x` fails: for a reason that `E` accepts, or for the very reason that
`y` fails for too. -/
def Refused (E : ε → Prop) (x y : Proc σ ε α) (s : σ) : Prop :=
  ∃ e, (exec x s).1 = .error e ∧ (E e ∨ (exec y s).1 = .error e)

namespace Refused

variable {E : ε → Prop} {s s' : σ}
variable {x : Proc σ ε α} {f f' : α → Proc σ ε β}

/-- Two bodies that begin alike: only where the beginning succeeds do they differ. -/
theorem bind (h : ∀ a s', exec x s = (.ok a, s') → Refused E (f a) (f' a) s') :
    Refused E (x >>= f) (x >>= f') s := by
  rw [Refused, exec_bind, exec_bind]
  cases hexec : exec x s with
  | mk r s' =>
    cases r with
    | ok a => exact h a s' hexec
    | error e => exact ⟨e, rfl, Or.inr rfl⟩

theorem bind_ok {a : α} (hexec : exec x s = (.ok a, s')) (h : Refused E (f a) (f' a) s') :
    Refused E (x >>= f) (x >>= f') s := by
  apply bind
  intro b t hb
  cases hexec.symm.trans hb
  exact h

theorem okOr_bind {o : Option α} {e : ε} (h : ∀ a, o = some a → Refused E (f a) (f' a) s) :
    Refused E (okOr o e >>= f) (okOr o e >>= f') s := by
  apply bind
  intro a t hexec
  cases o with
  | none => cases hexec
  | some b =>
    cases hexec
    exact h a rfl

theorem require_bind {c : Except ε α} (h : ∀ a, Refused E (f a) (f' a) s) :
    Refused E (require c >>= f) (require c >>= f') s := by
  apply bind
  intro a t hexec
  rw [exec_require] at hexec
  cases hexec
  exact h a

/-- A check that one of the two fails. -/
theorem fails {c : Except ε α} {e : ε} {y : Proc σ ε β}
    (hc : c = .error e) (he : E e) : Refused E (require c >>= f) y s := by
  refine ⟨e, ?_, Or.inl he⟩
  rw [exec_bind, exec_require, hc]
  rfl

theorem guard {c : Prop} [Decidable c] {e : ε} {x y : Proc σ ε β} (h : Refused E x y s) :
    Refused E (if c then throw e >>= f else x) (if c then throw e >>= f' else y) s := by
  split_ifs with hc
  · exact ⟨e, rfl, Or.inr rfl⟩
  · exact h

theorem mapError {y : Proc σ ε α} {f : ε → ε'} {E' : ε' → Prop}
    (h : Refused (fun e => E' (f e)) x y s) :
    Refused E' (Proc.mapError f x) (Proc.mapError f y) s := by
  obtain ⟨e, hx, hy⟩ := h
  refine ⟨f e, ?_, hy.imp_right fun hy => ?_⟩
  · rw [exec_mapError, hx]
    rfl
  · rw [exec_mapError, hy]
    rfl

/-- What comes after a failure does not matter. -/
theorem before {y : Proc σ ε α} (h : Refused E x y s) :
    Refused E (x >>= f) (y >>= f') s := by
  obtain ⟨e, hx, hy⟩ := h
  refine ⟨e, ?_, hy.imp_right fun hy => ?_⟩
  · rw [exec_bind, ← Prod.mk.eta (p := exec x s), hx]
    rfl
  · rw [exec_bind, ← Prod.mk.eta (p := exec y s), hy]
    rfl

end Refused

/-- From states related by `rel`, the procedure gives the same answer, and leaves states
related by it again. -/
def Respects (rel : σ → σ → Prop) (x : Proc σ ε α) : Prop :=
  ∀ s t, rel s t → (exec x s).1 = (exec x t).1 ∧ rel (exec x s).2 (exec x t).2

namespace Respects

variable {rel : σ → σ → Prop}

theorem pure (a : α) : Respects rel (pure a : Proc σ ε α) := fun _ _ h => ⟨rfl, h⟩

theorem throw (e : ε) : Respects rel (throw e : Proc σ ε α) := fun _ _ h => ⟨rfl, h⟩

theorem require (c : Except ε α) : Respects rel (Proc.require c : Proc σ ε α) := by
  intro s t h
  rw [exec_require, exec_require]
  exact ⟨rfl, h⟩

theorem okOr (o : Option α) (e : ε) : Respects rel (Proc.okOr o e : Proc σ ε α) := by
  cases o with
  | none => exact throw e
  | some a => exact pure a

theorem bind {x : Proc σ ε α} {f : α → Proc σ ε β} (hx : Respects rel x)
    (hf : ∀ a, Respects rel (f a)) : Respects rel (x >>= f) := by
  intro s t h
  obtain ⟨hanswer, hstates⟩ := hx s t h
  rw [exec_bind, exec_bind]
  cases hs : exec x s with
  | mk r s' =>
    cases ht : exec x t with
    | mk r' t' =>
      rw [hs, ht] at hanswer hstates
      replace hanswer : r = r' := hanswer
      subst hanswer
      cases r with
      | ok a => exact hf a s' t' hstates
      | error e => exact ⟨rfl, hstates⟩

/-- Whatever would follow a failure does not run. -/
theorem guard {c : Prop} [Decidable c] {e : ε} {f : α → Proc σ ε β} {y : Proc σ ε β}
    (hy : Respects rel y) : Respects rel (if c then MonadExcept.throw e >>= f else y) := by
  split_ifs
  · exact fun _ _ h => ⟨rfl, h⟩
  · exact hy

end Respects
end Proc
