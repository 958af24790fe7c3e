import StateScript.Error

/-!
Host methods. A method answers with a value or a failure, and before that may ask the context that
called it for something, any number of times.
-/

namespace StateScript

/-- How long a run of actions may take, in milliseconds and in steps. -/
structure ExecuteLimits where
  timeoutMs : Nat := 5000
  maxSteps : Nat := 10000
  deriving DecidableEq, Repr

/-- What a host method may ask of the scope that called it. -/
inductive Request where
  | getPath (path : String)
  | setPath (path : String) (value : Json)
  | bind (key : String) (value : Json)
  | evaluate (source : String)
  | execute (actions : List Json) (limits : ExecuteLimits)
  | describe
  | keep
  | suspend
  | hang
  | block (ms : Nat)

/-- Why a method fails: a chain of messages with the outermost first, or an error of this
library. -/
inductive MethodFailure where
  | messages (outer : String) (inner : List String)
  | error (e : Error)

/-- The course of a method call. -/
inductive Interaction where
  | done (value : Json)
  | failed (failure : MethodFailure)
  | ask (request : Request) (next : Except Error Json → Interaction)

/-- A method gets its parameters; the scope that called it is behind its requests. -/
abbrev Method := Json → Interaction

namespace MethodFailure

/-- The outermost message. -/
def top : MethodFailure → String
  | messages outer _ => outer
  | error e => e.display

/-- All messages. -/
def full : MethodFailure → String
  | messages outer inner => ": ".intercalate (outer :: inner)
  | error e => e.display

/-- The error of a call. A service error passes unchanged; anything else is wrapped. -/
def toError (method : String) (failure : MethodFailure) : Error :=
  let wrapped := (Error.single .service .serviceCallError
    s!"Method '{method}' failed: {failure.full}" (some failure.top) {}).withMetadata "method"
      (.string method)
  match failure with
  | error e => if e.isService then e else wrapped
  | messages .. => wrapped

end MethodFailure

end StateScript
