/-
# What becomes of a parser process

A process is looked at again and again, and the first look that does not let it run on decides what
its run gives.  A look may show several things at once: that the state of the process is not known
counts before that it has ended, an end before the wish to give up, and that wish before the limit.

Whatever the look is, the process and its group are dealt with once, before the output is collected.
That holds in three different ways: a process that has ended is reaped by the look itself, one that
is given up is cleaned up by the wait, and one whose state is not known is left to the guard.  The
invariant is a balance (`Guard.Accounts`): what has been done and what the guard still stands for make
up what it has stood for before.
-/
import CoverageEstimate.ExternalParser.Run
import Mathlib.Data.List.Basic
import Mathlib.Tactic.Lemma

namespace CoverageEstimate

namespace Supervision

/-! ## Looks that decide -/

/-- The look lets the process run on. -/
structure Poll.IsUndecided (poll : Poll) : Prop where
  running : poll.sight = .running
  not_cancelled : poll.isCancelled = false
  not_overdue : poll.isOverdue = false

instance (poll : Poll) : Decidable poll.IsUndecided :=
  decidable_of_iff (poll.sight = .running ∧ poll.isCancelled = false ∧ poll.isOverdue = false)
    ⟨fun ⟨hs, hc, ho⟩ => ⟨hs, hc, ho⟩, fun ⟨hs, hc, ho⟩ => ⟨hs, hc, ho⟩⟩

/-- The look decides why the wait for the process ends. -/
inductive Poll.Decides : Poll → Outcome → Prop
  | lost {poll : Poll} {reason : String} (unknown : poll.sight = .unknown reason) :
    Decides poll (.lost reason)
  | ended {poll : Poll} {status : ExitStatus} (ended : poll.sight = .ended status) :
    Decides poll (.ended status)
  | cancelled {poll : Poll} (running : poll.sight = .running) (cancelled : poll.isCancelled = true) :
    Decides poll .cancelled
  | timedOut {poll : Poll} (running : poll.sight = .running)
      (not_cancelled : poll.isCancelled = false) (overdue : poll.isOverdue = true) :
    Decides poll .timedOut

/-- A look lets the process run on or decides one thing. -/
lemma Poll.exists_decides {poll : Poll} (h : ¬poll.IsUndecided) :
    ∃ outcome, poll.Decides outcome := by
  cases hs : poll.sight with
  | unknown reason => exact ⟨_, .lost hs⟩
  | ended status => exact ⟨_, .ended hs⟩
  | running =>
    cases hc : poll.isCancelled with
    | true => exact ⟨_, .cancelled hs hc⟩
    | false =>
      cases ho : poll.isOverdue with
      | true => exact ⟨_, .timedOut hs hc ho⟩
      | false => exact absurd ⟨hs, hc, ho⟩ h

lemma Poll.Decides.not_isUndecided {poll : Poll} {outcome : Outcome} (h : poll.Decides outcome) :
    ¬poll.IsUndecided := by
  intro hnot
  cases h with
  | lost unknown => exact absurd (unknown.symm.trans hnot.running) (by simp)
  | ended ended => exact absurd (ended.symm.trans hnot.running) (by simp)
  | cancelled _ cancelled => exact absurd (cancelled.symm.trans hnot.not_cancelled) (by simp)
  | timedOut _ _ overdue => exact absurd (overdue.symm.trans hnot.not_overdue) (by simp)

/-! ## The balance of the guard -/

namespace Guard

/-- What has been done and what a guard still stands for make up what another one stands for: the
kill signal for the group, and the reaping of the process.  Nothing has been collected. -/
structure Accounts (g : Guard) (done : List Action) (left : Guard) : Prop where
  group : done.count .killGroup + left.holdsGroup.toNat = g.holdsGroup.toNat
  process : done.count .reap + left.holdsProcess.toNat = g.holdsProcess.toNat
  uncollected : Action.collect ∉ done

lemma Accounts.refl (g : Guard) : g.Accounts [] g := ⟨by simp, by simp, by simp⟩

lemma Accounts.trans {g h left : Guard} {front back : List Action} (hfront : g.Accounts front h)
    (hback : h.Accounts back left) : g.Accounts (front ++ back) left := by
  refine ⟨?_, ?_, ?_⟩
  · rw [List.count_append, Nat.add_assoc, hback.group, hfront.group]
  · rw [List.count_append, Nat.add_assoc, hback.process, hfront.process]
  · rw [List.mem_append, not_or]
    exact ⟨hfront.uncollected, hback.uncollected⟩

/-- Cleaning up does all that a guard stands for, whatever that is. -/
lemma accounts_cleanUp (g : Guard) : g.Accounts g.cleanUp .released := by
  obtain ⟨process, group⟩ := g
  cases process <;> cases group <;> exact ⟨by decide, by decide, by decide⟩

/-- A process that has been seen to have ended has been reaped. -/
lemma accounts_reap {g : Guard} (h : g.holdsProcess = true) :
    g.Accounts [.reap] { g with holdsProcess := false } :=
  ⟨by simp, by simp [h], by simp⟩

/-- **The balance of the wait.**  However the looks come out, the wait does its part and leaves the
rest to the guard. -/
lemma accounts_wait {g left : Guard} {looks : List Poll} {outcome : Outcome} {done : List Action}
    (h : wait g looks = some (outcome, left, done)) : g.Accounts done left := by
  induction looks with
  | nil =>
    rw [wait] at h
    split at h
    · simp at h
    · obtain ⟨-, rfl, rfl⟩ := by simpa using h
      exact .refl g
  | cons poll later ih =>
    by_cases hg : g.holdsProcess = true
    · by_cases hpoll : poll.IsUndecided
      · rw [wait_cons_running hg hpoll.running hpoll.not_cancelled hpoll.not_overdue] at h
        exact ih h
      · obtain ⟨decided, hdecides⟩ := Poll.exists_decides hpoll
        rw [wait, if_pos hg] at h
        cases hdecides with
        | lost unknown =>
          obtain ⟨-, rfl, rfl⟩ := by simpa [unknown] using h
          exact .refl g
        | ended ended =>
          obtain ⟨-, rfl, rfl⟩ := by simpa [ended] using h
          exact accounts_reap hg
        | cancelled running cancelled =>
          obtain ⟨-, rfl, rfl⟩ := by simpa [running, cancelled] using h
          exact accounts_cleanUp g
        | timedOut running not_cancelled overdue =>
          obtain ⟨-, rfl, rfl⟩ := by simpa [running, not_cancelled, overdue] using h
          exact accounts_cleanUp g
    · rw [wait, if_neg hg] at h
      obtain ⟨-, rfl, rfl⟩ := by simpa using h
      exact .refl g

end Guard

/-- Before the output is collected, the group has been killed once and the process has been reaped
once. -/
lemma exists_done_of_supervise {looks : List Poll} {outcome : Outcome} {actions : List Action}
    (h : supervise looks = some (outcome, actions)) :
    ∃ done, actions = done ++ [.collect] ∧ Action.collect ∉ done ∧ done.count .killGroup = 1 ∧
      done.count .reap = 1 := by
  rw [supervise] at h
  split at h
  · rename_i decided left done hwait
    obtain ⟨-, rfl⟩ := by simpa using h
    have hall := (Guard.accounts_wait hwait).trans left.accounts_cleanUp
    exact ⟨done ++ left.cleanUp, by simp, hall.uncollected, hall.group, hall.process⟩
  · simp at h

/-! ## The first look that decides -/

/-- Looks that let the process run on do not end the wait. -/
lemma wait_of_undecided {g : Guard} (hg : g.holdsProcess = true) {looks : List Poll}
    (h : ∀ poll ∈ looks, poll.IsUndecided) (later : List Poll) :
    wait g (looks ++ later) = wait g later := by
  induction looks with
  | nil => rfl
  | cons poll rest ih =>
    obtain ⟨hpoll, hrest⟩ := List.forall_mem_cons.mp h
    rw [List.cons_append, wait_cons_running hg hpoll.running hpoll.not_cancelled hpoll.not_overdue]
    exact ih hrest

/-- A look that decides ends the wait for what it decides. -/
lemma exists_wait_of_decides {g : Guard} (hg : g.holdsProcess = true) {poll : Poll}
    {outcome : Outcome} (h : poll.Decides outcome) (later : List Poll) :
    ∃ left done, wait g (poll :: later) = some (outcome, left, done) := by
  rw [wait, if_pos hg]
  cases h with
  | lost unknown => exact ⟨_, _, by rw [unknown]⟩
  | ended ended => exact ⟨_, _, by rw [ended]⟩
  | cancelled running cancelled => exact ⟨_, _, by rw [running]; simp [cancelled]; exact ⟨rfl, rfl⟩⟩
  | timedOut running not_cancelled overdue =>
    exact ⟨_, _, by rw [running]; simp [not_cancelled, overdue]; exact ⟨rfl, rfl⟩⟩

/-- Looks among which one decides have a first one that does. -/
lemma exists_first_decides {looks : List Poll} (h : ∃ poll ∈ looks, ¬poll.IsUndecided) :
    ∃ earlier poll later outcome, looks = earlier ++ poll :: later ∧
      (∀ p ∈ earlier, p.IsUndecided) ∧ poll.Decides outcome := by
  obtain ⟨p, hp, hdecides⟩ := h
  have hfind : (looks.find? fun poll => ¬poll.IsUndecided).isSome :=
    List.find?_isSome.mpr ⟨p, hp, by simpa using hdecides⟩
  obtain ⟨poll, hpoll⟩ := Option.isSome_iff_exists.mp hfind
  obtain ⟨hnot, earlier, later, rfl, hearlier⟩ := List.find?_eq_some_iff_append.mp hpoll
  obtain ⟨outcome, houtcome⟩ := Poll.exists_decides (by simpa using hnot)
  exact ⟨earlier, poll, later, outcome, rfl, by simpa using hearlier, houtcome⟩

/-- **The supervision of a process** ends at the first look that decides, and for what this decides. -/
lemma exists_supervise_iff {looks : List Poll} {outcome : Outcome} :
    (∃ actions, supervise looks = some (outcome, actions)) ↔
      ∃ earlier poll later, looks = earlier ++ poll :: later ∧
        (∀ p ∈ earlier, p.IsUndecided) ∧ poll.Decides outcome := by
  have hfresh : Guard.fresh.holdsProcess = true := rfl
  have hends {earlier : List Poll} (later : List Poll) {poll : Poll} {decided : Outcome}
      (hearlier : ∀ p ∈ earlier, p.IsUndecided) (hpoll : poll.Decides decided) :
      ∃ actions, supervise (earlier ++ poll :: later) = some (decided, actions) := by
    obtain ⟨left, done, hwait⟩ := exists_wait_of_decides hfresh hpoll later
    rw [supervise, wait_of_undecided hfresh hearlier, hwait]
    exact ⟨_, rfl⟩
  constructor
  · rintro ⟨actions, h⟩
    have hsome : ∃ poll ∈ looks, ¬poll.IsUndecided := by
      by_contra hnone
      have hall : ∀ poll ∈ looks, poll.IsUndecided := by simpa using hnone
      have hwait := wait_of_undecided hfresh hall []
      rw [List.append_nil] at hwait
      rw [supervise, hwait] at h
      simp [wait, hfresh] at h
    obtain ⟨earlier, poll, later, decided, rfl, hearlier, hpoll⟩ := exists_first_decides hsome
    obtain ⟨others, hothers⟩ := hends later hearlier hpoll
    obtain ⟨rfl, -⟩ := by simpa using h.symm.trans hothers
    exact ⟨earlier, poll, later, rfl, hearlier, hpoll⟩
  · rintro ⟨earlier, poll, later, rfl, hearlier, hpoll⟩
    exact hends later hearlier hpoll

end Supervision

/-! ## The answer of a run -/

namespace ExternalParser

open Supervision

/-- What the run of a parser gives when the wait for its process ends for a reason.  What it has
written counts only when it has ended with success; what it has written to its standard error goes
with every failure but the wish to give up. -/
inductive IsAnswer (path : String) (limit : ℕ) (output errors : List UInt8) :
    Outcome → Except AnalysisError ParserOutput → Prop
  | facts {facts : ParserOutput} (document : ParserResponse.ofBytes output = .ok (.success facts)) :
    IsAnswer path limit output errors (.ended (.code 0)) (.ok facts)
  | failure {message : String}
      (document : ParserResponse.ofBytes output = .ok (.failure message)) :
    IsAnswer path limit output errors (.ended (.code 0))
      (.error (.parserFailed path message (Text.shownBytes errors)))
  | noDocument {reason : String} (document : ParserResponse.ofBytes output = .error reason) :
    IsAnswer path limit output errors (.ended (.code 0))
      (.error (.parserFailed path ("invalid parser output: " ++ reason) (Text.shownBytes errors)))
  | noSuccess {status : ExitStatus} (other : status ≠ .code 0) :
    IsAnswer path limit output errors (.ended status)
      (.error (.parserFailed path ("parser exited with " ++ status.message)
        (Text.shownBytes errors)))
  | lost (reason : String) : IsAnswer path limit output errors (.lost reason)
      (.error (.parserFailed path ("waiting for parser: " ++ reason) (Text.shownBytes errors)))
  | cancelled : IsAnswer path limit output errors .cancelled (.error (.cancelled path))
  | timedOut : IsAnswer path limit output errors .timedOut
      (.error (.timedOut path limit (Text.shownBytes errors)))

lemma isAnswer_answer (path : String) (limit : ℕ) (output errors : List UInt8)
    (outcome : Outcome) :
    IsAnswer path limit output errors outcome (answer path limit output errors outcome) := by
  cases outcome with
  | lost reason => exact .lost reason
  | cancelled => exact .cancelled
  | timedOut => exact .timedOut
  | ended status =>
    by_cases hs : status = .code 0
    · subst hs
      have hsuccess : (ExitStatus.code 0).isSuccess = true := rfl
      rw [answer, if_pos hsuccess, decode]
      cases hdocument : ParserResponse.ofBytes output with
      | error reason => exact .noDocument hdocument
      | ok response =>
        cases response with
        | failure message => exact .failure hdocument
        | success facts => exact .facts hdocument
    · have hfailure : ¬status.isSuccess = true := by simpa [ExitStatus.isSuccess] using hs
      rw [answer, if_neg hfailure]
      exact .noSuccess hs

/-- A moment has been reached when it is looked at for the time that has its number. -/
lemma le_pollNumber_mul (time : ℕ) : time ≤ pollNumber time * pollInterval := by
  rw [pollNumber, pollInterval]
  omega

/-- The last of the looks at a process decides. -/
lemma exists_decides_polls (process : ParserProcess) (limit : ℕ) :
    ∃ poll ∈ polls process limit, ¬poll.IsUndecided := by
  have hlimit := le_pollNumber_mul limit
  have hduration := le_pollNumber_mul process.duration
  cases hstatus : process.status with
  | none =>
    refine ⟨⟨.running, false, true⟩, ?_, fun h => absurd h.not_overdue (by simp)⟩
    refine List.mem_map.mpr ⟨pollNumber limit, ?_, ?_⟩
    · simp [hstatus]
    · simp [hstatus, hlimit]
  | some status =>
    rcases Nat.le_total (pollNumber process.duration) (pollNumber limit) with hle | hle
    · -- the process has ended by then
      refine ⟨⟨.ended status, false, limit ≤ pollNumber process.duration * pollInterval⟩, ?_,
        fun h => absurd h.running (by simp)⟩
      refine List.mem_map.mpr ⟨pollNumber process.duration, ?_, ?_⟩
      · simp [hstatus, Nat.min_eq_left hle]
      · simp [hstatus, hduration]
    · -- the limit is reached, whether the process has ended or not
      refine ⟨⟨if process.duration ≤ pollNumber limit * pollInterval then .ended status else .running,
        false, true⟩, ?_, fun h => absurd h.not_overdue (by simp)⟩
      refine List.mem_map.mpr ⟨pollNumber limit, ?_, ?_⟩
      · simp [hstatus, Nat.min_eq_right hle]
      · simp [hstatus, hlimit]

variable {path : String} {limit : ℕ} {output errors : List UInt8} {looks : List Poll}

lemma conclude_eq_some_iff {result : Except AnalysisError ParserOutput} {actions : List Action} :
    conclude path limit output errors looks = some (result, actions) ↔
      ∃ outcome, supervise looks = some (outcome, actions) ∧
        answer path limit output errors outcome = result := by
  rw [conclude]
  cases supervise looks with
  | none => simp
  | some ended =>
    obtain ⟨outcome, done⟩ := ended
    simp only [Option.some.injEq, Prod.mk.injEq]
    constructor
    · rintro ⟨rfl, rfl⟩
      exact ⟨outcome, ⟨rfl, rfl⟩, rfl⟩
    · rintro ⟨_, ⟨rfl, rfl⟩, rfl⟩
      exact ⟨rfl, rfl⟩

/-- There is an answer when some look decides. -/
lemma exists_conclude_of_decides (path : String) (limit : ℕ) (output errors : List UInt8)
    (h : ∃ poll ∈ looks, ¬poll.IsUndecided) :
    ∃ result actions, conclude path limit output errors looks = some (result, actions) := by
  obtain ⟨earlier, poll, later, outcome, hlooks, hearlier, hdecides⟩ := exists_first_decides h
  obtain ⟨actions, hactions⟩ :=
    exists_supervise_iff.mpr ⟨earlier, poll, later, hlooks, hearlier, hdecides⟩
  exact ⟨_, actions, conclude_eq_some_iff.mpr ⟨outcome, hactions, rfl⟩⟩

/-- The first look that decides gives the answer. -/
lemma exists_first_of_conclude {result : Except AnalysisError ParserOutput} {actions : List Action}
    (h : conclude path limit output errors looks = some (result, actions)) :
    ∃ earlier poll later outcome, looks = earlier ++ poll :: later ∧
      (∀ p ∈ earlier, p.IsUndecided) ∧ poll.Decides outcome ∧
      IsAnswer path limit output errors outcome result := by
  obtain ⟨outcome, hactions, rfl⟩ := conclude_eq_some_iff.mp h
  obtain ⟨earlier, poll, later, hlooks, hearlier, hdecides⟩ :=
    exists_supervise_iff.mp ⟨actions, hactions⟩
  exact ⟨earlier, poll, later, outcome, hlooks, hearlier, hdecides, isAnswer_answer ..⟩

/-- A parser that has been started answers what its process gives. -/
lemma exists_conclude_parseFile (parser : ExternalParser) (files : FileSystem) (path : String)
    {process : ParserProcess}
    (started : ParserProcess.start files (pollNumber parser.limit * pollInterval) parser.program
      (parser.arguments ++ ["--file", target files.workingDirectory path]) = .ok process) :
    ∃ actions, conclude path parser.limit process.output process.errors
      (polls process parser.limit) = some (parser.parseFile files false path, actions) := by
  obtain ⟨result, actions, hconclude⟩ := exists_conclude_of_decides path parser.limit process.output
    process.errors (exists_decides_polls process parser.limit)
  have hparse : parser.parseFile files false path = result := by
    simp only [parseFile, Bool.false_eq_true, if_false, started, hconclude]
  exact ⟨actions, by rw [hconclude, hparse]⟩

/-- **The outcome of a parser run.**  For all looks at a process that has been started, there is an
answer when one of them decides; then the first one that does decides what the answer is.  All that
is done ends with the output being collected, and before that the kill signal has been sent to the
group once and the process has been reaped once.  So it is for the looks of a run, among which there
is always one that decides. -/
theorem conclude_decided (path : String) (limit : ℕ) (output errors : List UInt8)
    (looks : List Poll) :
    ((conclude path limit output errors looks).isSome ↔ ∃ poll ∈ looks, ¬poll.IsUndecided) ∧
    (∀ result actions, conclude path limit output errors looks = some (result, actions) →
      (∃ earlier poll later outcome, looks = earlier ++ poll :: later ∧
        (∀ p ∈ earlier, p.IsUndecided) ∧ poll.Decides outcome ∧
        IsAnswer path limit output errors outcome result) ∧
      ∃ done, actions = done ++ [.collect] ∧ .collect ∉ done ∧ done.count .killGroup = 1 ∧
        done.count .reap = 1) ∧
    ∀ (parser : ExternalParser) (files : FileSystem) (process : ParserProcess),
      ParserProcess.start files (pollNumber parser.limit * pollInterval) parser.program
        (parser.arguments ++ ["--file", target files.workingDirectory path]) = .ok process →
      ∃ actions, conclude path parser.limit process.output process.errors
        (polls process parser.limit) = some (parser.parseFile files false path, actions) := by
  refine ⟨⟨?_, ?_⟩, ?_, ?_⟩
  · intro h
    obtain ⟨⟨result, actions⟩, hconclude⟩ := Option.isSome_iff_exists.mp h
    obtain ⟨earlier, poll, later, outcome, rfl, -, hdecides, -⟩ :=
      exists_first_of_conclude hconclude
    exact ⟨poll, by simp, hdecides.not_isUndecided⟩
  · intro h
    obtain ⟨result, actions, hconclude⟩ := exists_conclude_of_decides path limit output errors h
    exact Option.isSome_iff_exists.mpr ⟨_, hconclude⟩
  · intro result actions h
    obtain ⟨outcome, hactions, -⟩ := conclude_eq_some_iff.mp h
    exact ⟨exists_first_of_conclude h, exists_done_of_supervise hactions⟩
  · intro parser files process started
    exact exists_conclude_parseFile parser files path started

end ExternalParser

end CoverageEstimate
