import Mathlib

/-!
# Programs that call the system

A program that runs next to others cannot be a function of the state it
finds: between two of its calls the others go on. A `Program` is what is
left of it, call by call: it has ended with a result, or it makes a call and
goes on in a way that depends on the answer.

A program alone is a function again, as soon as the calls are
(`Program.run`), and that of two programs in sequence is the two functions
in sequence (`run_bind`). Where a call may be answered in more than one way,
`Ensures` says what holds however the calls are answered, and is proved along
the program in the same manner (`ensures_bind`).
-/

/-- **A program** that makes calls `Op`, each with answers of its own type,
and ends with a result. -/
inductive Program (Op : Type) (Res : Op → Type) (α : Type)
  /-- It has ended. -/
  | ret (a : α)
  /-- It makes a call and goes on with the answer. -/
  | call (op : Op) (next : Res op → Program Op Res α)

namespace Program

variable {Op : Type} {Res : Op → Type} {σ α β : Type}

/-- Two programs in sequence. -/
def bind : Program Op Res α → (α → Program Op Res β) → Program Op Res β
  | ret a, f => f a
  | call op next, f => call op (fun answer => bind (next answer) f)

/-- **A program that nothing interrupts**, when every call is a function of
the state. -/
def run (handle : (op : Op) → σ → σ × Res op) : Program Op Res α → σ → σ × α
  | ret a, s => (s, a)
  | call op next, s => run handle (next (handle op s).2) (handle op s).1

@[simp] theorem run_ret (handle : (op : Op) → σ → σ × Res op) (a : α) (s : σ) :
    (ret a : Program Op Res α).run handle s = (s, a) := rfl

@[simp] theorem run_call (handle : (op : Op) → σ → σ × Res op) (op : Op)
    (next : Res op → Program Op Res α) (s : σ) :
    (call op next).run handle s = (next (handle op s).2).run handle (handle op s).1 := rfl

/-- **Sequence is composition.** -/
@[simp] theorem run_bind (handle : (op : Op) → σ → σ × Res op) (p : Program Op Res α)
    (f : α → Program Op Res β) (s : σ) :
    (p.bind f).run handle s = (f (p.run handle s).2).run handle (p.run handle s).1 := by
  induction p generalizing s with
  | ret a => rfl
  | call op next ih => exact ih _ _

/-! ## Calls with several answers -/

/-- **What a program ends with, however its calls are answered.** A call in a
state has the answers of a relation, each with the state behind it. -/
def Ensures (answers : (op : Op) → σ → Res op → σ → Prop) :
    Program Op Res α → (α → σ → Prop) → σ → Prop
  | ret a, Q, s => Q a s
  | call op next, Q, s => ∀ answer s', answers op s answer s' → Ensures answers (next answer) Q s'

section

variable {answers : (op : Op) → σ → Res op → σ → Prop} {s : σ}

theorem ensures_bind {p : Program Op Res α} {f : α → Program Op Res β} {Q : β → σ → Prop} :
    (p.bind f).Ensures answers Q s ↔
      p.Ensures answers (fun a s' => (f a).Ensures answers Q s') s := by
  induction p generalizing s with
  | ret a => rfl
  | call op next ih => exact forall₃_congr (fun answer s' _ => ih answer)

theorem Ensures.mono {p : Program Op Res α} {Q Q' : α → σ → Prop} (h : p.Ensures answers Q s)
    (hQ : ∀ a s', Q a s' → Q' a s') : p.Ensures answers Q' s := by
  induction p generalizing s with
  | ret a => exact hQ a s h
  | call op next ih => exact fun answer s' hans => ih answer (h answer s' hans)

end

end Program
