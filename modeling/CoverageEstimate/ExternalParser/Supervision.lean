/-
# Supervision of a parser process

A parser process is asked for its state again and again until it has ended, its analysis is given
up or its time is over.  The process leads a group, which is killed whatever the outcome is, so
that no process it has started stays behind.  A guard stands for what is still to be cleaned up:
what it releases once it does not release again.
-/
namespace CoverageEstimate

/-- How a process has ended. -/
inductive ExitStatus where
  /-- It has exited with a status. -/
  | code (n : Nat)
  /-- A signal has killed it. -/
  | signal (n : Nat)
  deriving DecidableEq, Repr, Inhabited

namespace ExitStatus

/-- Whether the process reports success. -/
def isSuccess (s : ExitStatus) : Bool := s == code 0

end ExitStatus

namespace Supervision

/-- What asking for the state of the process gives. -/
inductive Sight where
  /-- It runs. -/
  | running
  /-- It has ended, and this has reaped it. -/
  | ended (status : ExitStatus)
  /-- Its state is not known, for a reason. -/
  | unknown (reason : String)
  deriving DecidableEq, Repr, Inhabited

/-- One look at the process: its state, whether its analysis is to be given up by then, and whether
its time is over. -/
structure Poll where
  sight : Sight
  isCancelled : Bool
  isOverdue : Bool
  deriving DecidableEq, Repr, Inhabited

/-- Why waiting for the process has come to an end. -/
inductive Outcome where
  /-- The process has ended. -/
  | ended (status : ExitStatus)
  /-- The analysis is given up. -/
  | cancelled
  /-- Its time is over. -/
  | timedOut
  /-- Its state cannot be found out. -/
  | lost (reason : String)
  deriving DecidableEq, Repr, Inhabited

/-- What is done to the process and its output. -/
inductive Action where
  /-- The kill signal is sent to the group. -/
  | killGroup
  /-- The kill signal is sent to the process. -/
  | killProcess
  /-- The process is reaped. -/
  | reap
  /-- The output is collected. -/
  | collect
  deriving DecidableEq, Repr, Inhabited

/-- What is still to be cleaned up. -/
structure Guard where
  /-- The process has not been reaped. -/
  holdsProcess : Bool
  /-- The group has not been killed. -/
  holdsGroup : Bool
  deriving DecidableEq, Repr, Inhabited

namespace Guard

/-- The guard of a process that has been started. -/
def fresh : Guard := ⟨true, true⟩

/-- What the guard does to clean up. -/
def cleanUp (g : Guard) : List Action :=
  (if g.holdsGroup then [.killGroup] else []) ++
    (if g.holdsProcess then [.killProcess, .reap] else [])

/-- The guard that has cleaned up. -/
def released : Guard := ⟨false, false⟩

end Guard

/-- Waits for the end of the process: why the wait ends, the guard after it, and what has been done
during it.  There is no answer when the looks do not suffice.  Nobody can wait for a process that has
been reaped. -/
def wait (g : Guard) : List Poll → Option (Outcome × Guard × List Action)
  | [] => if g.holdsProcess then none else some (.lost "process already reaped", g, [])
  | poll :: later =>
    if g.holdsProcess then
      match poll.sight with
      | .unknown reason => some (.lost reason, g, [])
      | .ended status => some (.ended status, { g with holdsProcess := false }, [.reap])
      | .running =>
        if poll.isCancelled then some (.cancelled, .released, g.cleanUp)
        else if poll.isOverdue then some (.timedOut, .released, g.cleanUp)
        else wait g later
    else some (.lost "process already reaped", g, [])

/-- The whole supervision of a process that has been started: why the wait ends, and all that is
done until the output has been collected. -/
def supervise (polls : List Poll) : Option (Outcome × List Action) :=
  match wait .fresh polls with
  | some (outcome, g, actions) => some (outcome, actions ++ g.cleanUp ++ [.collect])
  | none => none

/-- A look at a running process that may go on decides nothing. -/
theorem wait_cons_running {g : Guard} {poll : Poll} {later : List Poll}
    (hg : g.holdsProcess = true) (hs : poll.sight = .running) (hc : poll.isCancelled = false)
    (ho : poll.isOverdue = false) : wait g (poll :: later) = wait g later := by
  simp [wait, hg, hs, hc, ho]

@[simp] theorem cleanUp_released : Guard.released.cleanUp = [] := rfl

end Supervision

end CoverageEstimate
