/-!
# Programs that make calls

A program either is done or makes a call and goes on with the answer. What a call does is not its
business: a handler gives the answers, from a state that it keeps, so one program runs against a
simulated cluster, against an API server, or step by step between the calls of others.
-/
namespace ReleaseKeeper

/-- A computation that makes calls and goes on with their answers. -/
inductive Program (Call : Type) (Answer : Call → Type) (α : Type) where
  | done (result : α)
  | call (c : Call) (next : Answer c → Program Call Answer α)

namespace Program

variable {Call : Type} {Answer : Call → Type} {α β σ : Type}

def bind (p : Program Call Answer α) (f : α → Program Call Answer β) : Program Call Answer β :=
  match p with
  | done x => f x
  | call c next => call c fun a => (next a).bind f

instance : Monad (Program Call Answer) where
  pure := done
  bind := bind

/-- The program that makes one call and answers with what it is told. -/
def ask (c : Call) : Program Call Answer (Answer c) := call c done

/-- Gives the answers to calls out of a state. -/
abbrev Handler (Call : Type) (Answer : Call → Type) (σ : Type) :=
  (c : Call) → StateM σ (Answer c)

/-- Runs a program to its end. -/
def run (handle : Handler Call Answer σ) : Program Call Answer α → StateM σ α
  | done x => Pure.pure x
  | call c next => fun s => run handle (next (handle c s).1) (handle c s).2

def calls (handle : Handler Call Answer σ) :
    Program Call Answer α → σ → List ((c : Call) × Answer c)
  | done _, _ => []
  | call c next, s => ⟨c, (handle c s).1⟩ :: calls handle (next (handle c s).1) (handle c s).2

/-- Answers each call by a program of other calls, which keeps a state in between. -/
def interpret {Call' : Type} {Answer' : Call' → Type}
    (f : (c : Call) → StateT σ (Program Call' Answer') (Answer c)) :
    Program Call Answer α → StateT σ (Program Call' Answer') α
  | done x => Pure.pure x
  | call c next => fun s => (f c s).bind fun (a, s) => interpret f (next a) s

theorem bind_done (p : Program Call Answer α) : p.bind done = p := by
  induction p with
  | done _ => rfl
  | call c next ih => simp [bind, ih]

theorem bind_assoc {γ : Type} (p : Program Call Answer α) (f : α → Program Call Answer β)
    (g : β → Program Call Answer γ) : (p.bind f).bind g = p.bind fun x => (f x).bind g := by
  induction p with
  | done _ => rfl
  | call c next ih => simp [bind, ih]

theorem run_bind (handle : Handler Call Answer σ) (p : Program Call Answer α)
    (f : α → Program Call Answer β) (s : σ) :
    run handle (p.bind f) s = run handle (f (run handle p s).1) (run handle p s).2 := by
  induction p generalizing s with
  | done _ => rfl
  | call c next ih => simp [bind, run, ih]

end Program

end ReleaseKeeper
