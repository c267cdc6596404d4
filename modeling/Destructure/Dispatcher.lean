import Destructure.Limits

/-! # Dispatching a value to the first arm that fits

A dispatcher tries its arms in order.  Patterns are read when their turn comes, so an arm after the
one that decides is never looked at.  The first arm that fits decides, and so does the first error.
-/

namespace Destructure

/-- What an arm does once its pattern fits. -/
inductive Action (β : Type) where
  /-- Gives the bindings to a handler. -/
  | call (handler : Bindings → β)
  /-- Drops the bindings for a fixed result. -/
  | value (result : β)

def Action.run {β : Type} : Action β → Bindings → β
  | call handler, bound => handler bound
  | value result, _ => result

/-- A pattern text and what happens to the values that fit it. -/
structure Arm (β : Type) where
  pattern : String
  action : Action β

/-- Arms in the order in which they are tried, and the limits on their texts. -/
structure Dispatcher (β : Type) where
  limits : Limits
  arms : List (Arm β)

namespace Dispatcher

variable {β : Type}

def empty (limits : Limits) : Dispatcher β := ⟨limits, []⟩

/-- Adds an arm after all others. -/
def push (d : Dispatcher β) (pattern : String) (action : Action β) : Dispatcher β :=
  ⟨d.limits, d.arms ++ [⟨pattern, action⟩]⟩

/-- Adds an arm that calls a handler. -/
def on (d : Dispatcher β) (pattern : String) (handler : Bindings → β) : Dispatcher β :=
  d.push pattern (.call handler)

/-- Adds an arm with a fixed result. -/
def onValue (d : Dispatcher β) (pattern : String) (result : β) : Dispatcher β :=
  d.push pattern (.value result)

def size (d : Dispatcher β) : Nat := d.arms.length

def isEmpty (d : Dispatcher β) : Bool := d.arms.isEmpty

def tryArms (limits : Limits) (value : Value) : List (Arm β) → Except MatchError β
  | [] => .error .nonExhaustive
  | arm :: arms =>
    match limits.destructure arm.pattern value with
    | .error e => .error e
    | .ok none => tryArms limits value arms
    | .ok (some bound) => .ok (arm.action.run bound)

/-- What the first arm that fits makes of the value. -/
def dispatch (d : Dispatcher β) (value : Value) : Except MatchError β :=
  tryArms d.limits value d.arms

end Dispatcher

end Destructure
