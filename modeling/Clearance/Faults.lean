/-!
# Clearance — Faults

Which calls to a store fail before they do anything.  A plan is asked with the number of the call and
its method, so it can fail every call to a method as well as a single one.
-/

namespace Clearance

abbrev Faults (μ : Type) := Nat → μ → Bool

namespace Faults

/-- No call fails. -/
def none {μ : Type} : Faults μ := fun _ _ => false

/-- Every call to one of the methods fails. -/
def everyCallTo {μ : Type} [DecidableEq μ] (methods : List μ) : Faults μ :=
  fun _ m => methods.contains m

end Faults

end Clearance
