import BitPattern.Gate

set_option autoImplicit false

namespace BitPattern

inductive Event where
  | countSaturated (base slots : Nat)
  /-- A gate could not be solved at a position that holds these two bits. -/
  | unsolvable (gate : Gate) (position : Nat) (result known : Trit)
  deriving DecidableEq, Repr

def Event.level : Event → String
  | .countSaturated .. => "TRACE"
  | .unsolvable .. => "DEBUG"

def Event.message : Event → String
  | .countSaturated .. => "Permutation count saturated"
  | .unsolvable .. => "Reverse solve is infeasible"

def Event.details : Event → List (String × String)
  | .countSaturated base slots => [("base", toString base), ("slots", toString slots)]
  | .unsolvable gate position result known =>
    [("operation", gate.title), ("position", toString position),
      ("result", result.symbol.toString), ("known", known.symbol.toString)]

/-- A value and the events reported on the way to it, the oldest first. -/
structure Logged (α : Type) where
  value : α
  events : List Event
  deriving DecidableEq, Repr

instance : Monad Logged where
  pure a := ⟨a, []⟩
  bind x f := ⟨(f x.value).value, x.events ++ (f x.value).events⟩

def Logged.report (e : Event) : Logged Unit := ⟨(), [e]⟩

@[simp] theorem Logged.events_pure {α : Type} (a : α) : (pure a : Logged α).events = [] := rfl

@[simp] theorem Logged.events_bind {α β : Type} (x : Logged α) (f : α → Logged β) :
    (x >>= f).events = x.events ++ (f x.value).events := rfl

end BitPattern
