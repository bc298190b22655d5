/-!
# Walks

A walk answers a question about a place, such as a value of a store, by asking for the answers at
other places first.  Places may refer to each other in any way.  A walk keeps no account of where it
is: if the places ask each other in a circle, it does not come to an end, and there is no answer.
-/

set_option autoImplicit false

namespace SandboxedGo

/-- What is to be done at a place: the answer is known, or first another place has to be asked. -/
inductive Visit {α : Type} (ρ : α → Type) (β : Type) : Type
  | done (b : β)
  | ask (place : α) (next : ρ place → Visit ρ β)

namespace Visit

variable {α : Type} {ρ : α → Type} {β γ : Type}

protected def bind (x : Visit ρ β) (f : β → Visit ρ γ) : Visit ρ γ :=
  match x with
  | done b => f b
  | ask place next => ask place fun r => (next r).bind f

instance : Monad (Visit ρ) where
  pure := done
  bind := Visit.bind

def consult (place : α) : Visit ρ (ρ place) := ask place done

/-- The results for several items behind those read so far, in reverse, up to the first failure. -/
def collectFrom {ε δ : Type} (f : γ → Visit ρ (Except ε δ)) (read : List δ) :
    List γ → Visit ρ (Except ε (List δ))
  | [] => done (.ok read.reverse)
  | item :: rest => do
    match ← f item with
    | .ok d => collectFrom f (d :: read) rest
    | .error e => done (.error e)

/-- The results for several items, up to the first failure. -/
def collect {ε δ : Type} (f : γ → Visit ρ (Except ε δ)) (items : List γ) :
    Visit ρ (Except ε (List δ)) := collectFrom f [] items

/-- Do what is to be done, as far as the places that are asked have answers. -/
def follow (answer : (place : α) → Option (ρ place)) : Visit ρ β → Option β
  | done b => some b
  | ask place next =>
    match answer place with
    | some r => (next r).follow answer
    | none => none

end Visit

def walk {α : Type} {ρ : α → Type} (visit : (place : α) → Visit ρ (ρ place)) (place : α) :
    Option (ρ place) :=
  (visit place).follow (by apply walk; exact visit)
-- With more answers at the places, a visit that was answered has the same answer.
partial_fixpoint monotonicity fun fewer more le place => by
  dsimp only
  induction visit place with
  | done b => constructor
  | ask asked next ih =>
      have known := le asked
      simp only [Visit.follow]
      generalize fewer asked = before, more asked = after at known ⊢
      cases known with
      | bot => constructor
      | refl =>
          cases before with
          | none => constructor
          | some r => exact ih r

end SandboxedGo
