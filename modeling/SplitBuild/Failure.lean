import SplitBuild.Diagnostic
/-!
# Failures

A failure stops a step of the program. It has a cause, which may carry
diagnostics, and tells from the outside in what was being tried. A build
error sorts failures by what they carry: diagnostics show through every
context (`BuildError.ofFailure_within`), and anything else is one unknown
diagnostic that tells the whole chain.
-/

namespace SplitBuild

/-- What a failure comes down to. -/
inductive Cause where
  | message (text : String)
  | diagnostic (d : Diagnostic)
  | diagnostics (ds : List Diagnostic)
  deriving DecidableEq, Repr

namespace Cause

/-- The text of a cause. -/
def display : Cause → String
  | message text => text
  | diagnostic d => d.display
  | diagnostics ds => Diagnostic.displayAll ds

end Cause

/-- A cause, and what was being tried, outermost first. -/
structure Failure where
  contexts : List String
  cause : Cause
  deriving DecidableEq, Repr

namespace Failure

/-- The failure with a message. -/
def ofMessage (text : String) : Failure := ⟨[], .message text⟩

/-- The failure that carries a diagnostic. -/
def ofDiagnostic (d : Diagnostic) : Failure := ⟨[], .diagnostic d⟩

/-- A failure while something else was being tried. -/
def within (f : Failure) (context : String) : Failure :=
  { f with contexts := context :: f.contexts }

/-- The contexts and the cause, outermost first. -/
def chain (f : Failure) : String := ": ".intercalate (f.contexts ++ [f.cause.display])

/-- What was being tried last; the cause where nothing is known of that. -/
def display (f : Failure) : String :=
  match f.contexts with
  | outermost :: _ => outermost
  | [] => f.cause.display

end Failure

/-- Why a build failed. -/
inductive BuildError where
  | io (message : String)
  | diagnostic (d : Diagnostic)
  | diagnostics (ds : List Diagnostic)
  | message (text : String)
  | unknown (f : Failure)
  deriving DecidableEq, Repr

namespace BuildError

/-- The build error of a failure. -/
def ofFailure (f : Failure) : BuildError :=
  match f.cause with
  | .diagnostic d => .diagnostic d
  | .diagnostics ds => .diagnostics ds
  | .message _ => .unknown f

/-- The text of a build error. -/
def display : BuildError → String
  | io text => text
  | diagnostic d => d.display
  | diagnostics ds => Diagnostic.displayAll ds
  | message text => text
  | unknown f => f.display

/-- The diagnostics a build error comes down to. -/
def toDiagnostics : BuildError → List Diagnostic
  | diagnostic d => [d]
  | diagnostics ds => ds
  | unknown f => [.ofMessage .unknown f.chain]
  | io text => [.ofMessage .unknown text]
  | message text => [.ofMessage .unknown text]

/-- A context hides no diagnostic. -/
theorem ofFailure_within {f : Failure} (context : String) (h : ∀ text, f.cause ≠ .message text) :
    ofFailure (f.within context) = ofFailure f := by
  unfold ofFailure Failure.within
  cases hc : f.cause with
  | message text => exact absurd hc (h text)
  | diagnostic d => rfl
  | diagnostics ds => rfl

end BuildError

end SplitBuild
