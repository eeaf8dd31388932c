import Kestrel.Endpoint.Writer

/-! # The results of migrations

Whoever migrates waits for one message, that the connection has moved or that it has not. The state
of a path validation keeps the sender of that message, but every place that would use it takes it
from a copy of the state, and a copy has none.
-/

namespace Kestrel

namespace Endpoint

variable {C : Type} [CongestionControl C] {t : Tick} {l : Label} {e e' : Endpoint C}

theorem Act.notified (h : Act t l e e') : e'.notified = e.notified := by
  cases h with
  | packetize chunks b lead bs hs hp hlead hb =>
    change ((e.cut t chunks b).createFin t).2.notified = e.notified
    unfold createFin
    split <;> rfl
  | sendEof hl =>
    unfold Endpoint.sendEof
    split <;> rfl
  | _ => rfl

end Endpoint

namespace Machine

open Endpoint

variable {C : Type} [CongestionControl C] {m : Machine C}

theorem notified_eq_nil (h : (system C).Reachable m) : m.endpoint.notified = [] := by
  refine (invariant (P := fun e : Endpoint C => e.notified = []) ?_ ?_ ?_ ?_).holds h
  · intro e he
    cases he with
    | client config remoteAddr localCid cc initialData t =>
      cases initialData <;> rfl
    | server => rfl
  · intro t l e e' he ha
    exact ha.notified.trans he
  · intro t e he
    obtain ⟨data, held, hd⟩ := deliver_eq (t := t) (e := e)
    rw [hd]
    exact he
  · intro e f he
    exact he

end Machine

namespace Writer

variable {C : Type} [CongestionControl C] {w w' : Writer C}

/-- The values sent to the caller who waits on a notifier. -/
def results (w : Writer C) (n : Notifier) : List (Except Error Unit) :=
  (w.machine.endpoint.notified.filter fun r => r.1 = n).map (·.2)

/-- The answer to the challenge of a migration, from the address it was for, moves the connection
there. -/
def Completes (w : Writer C) (l : WriterLabel) (w' : Writer C) (a : SocketAddr) (n : Notifier) :
    Prop :=
  ∃ t header c, l = .machine (.frame t (.pathResponse header c) a) ∧
    w.machine.endpoint.state = .validatingPath a c (some n) ∧ w'.machine.endpoint.remoteAddr = a

/-- Some step of a run completes the migration. -/
def Completed (w₀ : Writer C) (ls : List WriterLabel) (a : SocketAddr) (n : Notifier) : Prop :=
  ∃ before l after w w', ls = before ++ l :: after ∧
    before.foldlM (fun (w : Writer C) l => w.next l) w₀ = some w ∧ w.next l = some w' ∧
      Completes w l w' a n

/-- One value was sent, and it says whether the migration was completed. -/
def Reported (w₀ : Writer C) (ls : List WriterLabel) (w : Writer C) (a : SocketAddr)
    (n : Notifier) : Prop :=
  ∃ r, w.results n = [r] ∧ (r = .ok () ↔ Completed w₀ ls a n)

theorem results_eq_nil (h : (system C).Reachable w) (n : Notifier) : w.results n = [] := by
  rw [results, Machine.notified_eq_nil (reachable_machine h)]
  rfl

/-- However a run goes on after a migration was asked for, its result is never reported. -/
theorem migration_unreported (w₀ w : Writer C) (ls : List WriterLabel) (h₀ : (system C).init w₀)
    (hr : ls.foldlM (fun (w : Writer C) l => w.next l) w₀ = some w) (a : SocketAddr) (n : Notifier)
    (_ : WriterLabel.migrate a n ∈ ls) : ¬ Reported w₀ ls w a n := by
  rintro ⟨r, hone, -⟩
  have hrun : (system C).Run ([] ++ ls) w := TransitionSystem.Run.foldlM (.init h₀) hr
  rw [results_eq_nil hrun.reachable n] at hone
  cases hone

section Sample

open Machine

/-- A client migrates from address 80 to 90, is answered from there, and is closed after it was
idle. -/
def migratingRun : List WriterLabel :=
  [.machine (.begin (tick 0)), .machine (.frame (tick 1) (.newSynAck 1 2 1) 80),
    .machine (.followUp (tick 1)), .migrate 90 (.caller 5),
    .machine (.command (tick 2) (.migrate 90 (.caller 5))), .machine (.followUp (tick 2)),
    .machine (.frame (tick 3) (.newPathResponse 1 0 0 0) 90), .machine (.followUp (tick 3)),
    .machine (.fire 0 (Duration.fromSecs 10)), .machine (.poll (tick 4))]

theorem exists_migratingRun : ∃ w : Writer Vegas,
    migratingRun.foldlM (fun (w : Writer Vegas) l => w.next l) (clientWith 10) = some w ∧
      w.isClosed = true ∧ w.machine.endpoint.remoteAddr = 90 ∧ w.results (.caller 5) = [] := by
  have h : (migratingRun.foldlM (fun (w : Writer Vegas) l => w.next l) (clientWith 10)).map
      (fun w => decide (w.isClosed = true ∧ w.machine.endpoint.remoteAddr = 90 ∧
        w.results (.caller 5) = [])) = some true := by decide
  obtain ⟨w, hr, hp⟩ := Option.map_eq_some_iff.mp h
  exact ⟨w, hr, of_decide_eq_true hp⟩

theorem migration_unreported_sample : ∃ w : Writer Vegas,
    migratingRun.foldlM (fun (w : Writer Vegas) l => w.next l) (clientWith 10) = some w ∧
      ¬ Reported (clientWith 10) migratingRun w 90 (.caller 5) := by
  obtain ⟨w, hr, -⟩ := exists_migratingRun
  exact ⟨w, hr, migration_unreported _ w _ (clientWith_created 10) hr 90 _ (by decide)⟩

/-- Although the connection has moved, its caller was told nothing when it ended. -/
theorem completed_migration_unreported : ∃ w : Writer Vegas,
    migratingRun.foldlM (fun (w : Writer Vegas) l => w.next l) (clientWith 10) = some w ∧
      w.isClosed = true ∧ w.machine.endpoint.remoteAddr = 90 ∧
        ¬ Reported (clientWith 10) migratingRun w 90 (.caller 5) := by
  obtain ⟨w, hr, hc, ha, hn⟩ := exists_migratingRun
  refine ⟨w, hr, hc, ha, ?_⟩
  rintro ⟨r, hone, -⟩
  rw [hn] at hone
  cases hone

end Sample

end Writer

end Kestrel
