/-
Programs that act only through calls to their environment: a program has ended with a result, or waits for the answer
to a call. A specification says in which states a call may be made, which answers it can get and what it then does to
the state that the program owns; `Prog.Sound` is the weakest precondition of a program for it, with a rule for each
way to build a program. A system in which such programs take their steps among others keeps `Sound` by `Sound.answer`,
as long as the others leave the owned state alone.
-/
import Mathlib.Tactic.Common

namespace Lib

/-! ## Programs -/

inductive Prog (χ ρ α : Type) where
  | done (a : α)
  | call (c : χ) (k : ρ → Prog χ ρ α)

namespace Prog

variable {χ ρ α β σ : Type}

def bind : Prog χ ρ α → (α → Prog χ ρ β) → Prog χ ρ β
  | done a, f => f a
  | call c k, f => call c fun r => (k r).bind f

instance : Monad (Prog χ ρ) where
  pure := done
  bind := bind

/-- One call, with its answer as the result. -/
def send (c : χ) : Prog χ ρ ρ := call c done

/-- A body for each element in turn. -/
def each (f : β → Prog χ ρ Unit) : List β → Prog χ ρ Unit
  | [] => pure ()
  | b :: bs => do
    f b
    each f bs

@[simp] theorem done_bind (a : α) (f : α → Prog χ ρ β) : (pure a : Prog χ ρ α) >>= f = f a := rfl

@[simp] theorem call_bind (c : χ) (k : ρ → Prog χ ρ α) (f : α → Prog χ ρ β) :
    call c k >>= f = call c fun r => k r >>= f := rfl

@[simp] theorem send_bind (c : χ) (f : ρ → Prog χ ρ β) : (send c : Prog χ ρ ρ) >>= f = call c f := rfl

end Prog

/-! ## What a program keeps -/

/-- What the calls mean to the program that makes them. -/
structure Calls (χ ρ σ : Type) where
  /-- the call may be made -/
  ok : χ → σ → Prop
  /-- the call can get the answer -/
  answers : χ → σ → ρ → Prop
  after : χ → ρ → σ → σ

namespace Prog

variable {χ ρ α β σ : Type} {E : Calls χ ρ σ} {Q Q' : α → σ → Prop} {s : σ}

/-- From the state on, every call that the program makes may be made, and it ends only in the condition. -/
def Sound (E : Calls χ ρ σ) (Q : α → σ → Prop) : Prog χ ρ α → σ → Prop
  | done a, s => Q a s
  | call c k, s => E.ok c s ∧ ∀ r, E.answers c s r → Sound E Q (k r) (E.after c r s)

theorem sound_pure {a : α} (h : Q a s) : Sound E Q (pure a) s := h

theorem Sound.answer {c : χ} {k : ρ → Prog χ ρ α} (h : Sound E Q (call c k) s) {r : ρ} (hr : E.answers c s r) :
    Sound E Q (k r) (E.after c r s) := h.2 r hr

theorem Sound.mono {p : Prog χ ρ α} (h : Sound E Q p s) (hQ : ∀ a s, Q a s → Q' a s) : Sound E Q' p s := by
  induction p generalizing s with
  | done a => exact hQ a s h
  | call c k ih => exact ⟨h.1, fun r hr => ih r (h.2 r hr)⟩

theorem Sound.bind {p : Prog χ ρ α} {f : α → Prog χ ρ β} {Q : β → σ → Prop}
    (h : Sound E (fun a s => Sound E Q (f a) s) p s) : Sound E Q (p >>= f) s := by
  induction p generalizing s with
  | done a => exact h
  | call c k ih => exact ⟨h.1, fun r hr => ih r (h.2 r hr)⟩

/-- A part with a specification of its own, and what follows it. -/
theorem Sound.seq {p : Prog χ ρ α} {f : α → Prog χ ρ β} {R : β → σ → Prop} (h : Sound E Q p s)
    (hf : ∀ a s, Q a s → Sound E R (f a) s) : Sound E R (p >>= f) s := (h.mono hf).bind

theorem sound_send_bind {c : χ} {f : ρ → Prog χ ρ α} (hok : E.ok c s)
    (h : ∀ r, E.answers c s r → Sound E Q (f r) (E.after c r s)) : Sound E Q (send c >>= f) s := ⟨hok, h⟩

/-- A loop keeps what holds of the elements still to come. -/
theorem sound_each {f : β → Prog χ ρ Unit} {J : List β → σ → Prop}
    (hf : ∀ b bs s, J (b :: bs) s → Sound E (fun _ s => J bs s) (f b) s) {bs : List β} (h : J bs s) :
    Sound E (fun _ s => J [] s) (each f bs) s := by
  induction bs generalizing s with
  | nil => exact h
  | cons b bs ih => exact (hf b bs s h).seq fun _ _ => ih

end Prog

end Lib
