import Clearance.Proofs.Engine.Accounts
import Clearance.Proofs.Task.Cancelled
import Clearance.Proofs.Task.Submission

/-!
# Clearance — Proofs — Engine — Cancellation is clean

* `Engine.tidy_after`: whatever is done, the container cache has room for what it holds.
* `Engine.cancellation_clean`: after any run, a call in a cancelled context does what it does in a
  fresh one, or it stops before it calls an agency, and can be made again.
-/

namespace Clearance

namespace Engine

open Workshop

theorem tidy_after (containers notifications : Nat) (ops : List Op) :
    (after ops (ofCapacity containers notifications)).workshop.cache.Tidy := by
  have he := steady_ofCapacity containers notifications
  obtain ⟨log, hlog⟩ := exists_tended he ops
  exact (hlog.audited he (ContainerCache.tidy_ofCapacity containers)).2.1.tidy

/-- **Cancellation.** After any run, a call in a context that is cancelled already is the same call in
a fresh context if that calls no agency.  If it does, the cancelled call is answered as cancelled:
it sends no request and no notification, it changes no record, except that a node that is activated
for the first time has its new one, and the same call made next in a fresh context is answered and
leaves records, notifications, counters and requests as if it had not been cancelled before. -/
theorem cancellation_clean (containers notifications : Nat) (ops : List Op) (c : Call) :
    let w := (after ops (ofCapacity containers notifications)).workshop
    let fresh := (c.under false).perform w
    let cancelled := (c.under true).perform w
    (fresh.2.agency.journal = w.agency.journal → cancelled = fresh) ∧
    (fresh.2.agency.journal ≠ w.agency.journal →
      (∃ url, cancelled.1.failure? = some (.callCancelled url)) ∧
      Stopped (c.begun w) w cancelled.2 ∧ (c.under false).SameIn w cancelled.2) :=
  Call.clean ((steady_ofCapacity containers notifications).after ops).coherent
    (tidy_after containers notifications ops) c

/-- A service is there to be told of a wait. -/
def attended : List Op :=
  [.agencies true (Table.empty.insert (.post, "http://agency.test/") [.answer 200 ""])]

/-- The service is not told of a wait whose activation is cancelled, and is told when the node is
activated again. -/
theorem cancellation_clean_announced :
    let w := (after attended (ofCapacity 1 1)).workshop
    let cancelled := (announced.under true).perform w
    (∃ url, cancelled.1.failure? = some (.callCancelled url)) ∧
      Stopped (announced.begun w) w cancelled.2 ∧ (announced.under false).SameIn w cancelled.2 ∧
      cancelled.2.lifecycle ⟨"$1-paid"⟩ = .initialized ∧
      ((announced.under false).perform cancelled.2).2.lifecycle ⟨"$1-paid"⟩ = .inProgress := by
  have hcalls : ((announced.under false).perform
      (after attended (ofCapacity 1 1)).workshop).2.agency.journal ≠
        (after attended (ofCapacity 1 1)).workshop.agency.journal := by
    decide +kernel
  obtain ⟨hanswer, hstopped, hagain⟩ := (cancellation_clean 1 1 attended announced).2 hcalls
  exact ⟨hanswer, hstopped, hagain, by decide +kernel, by decide +kernel⟩

end Engine

end Clearance
