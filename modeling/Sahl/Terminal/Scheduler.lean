import Mathlib.Tactic
import Sahl.Sync.Backoff
import Sahl.Sync.Http
import Sahl.Terminal.OwnLog

/-! # The background sync loop

    A thread of its own syncs the till while the cashier uses it. It holds the till for a round and
    lets go before it sleeps, so a cashier's call may come between any two of its steps; the badge
    shows how the last round went. A command that panics while it holds the till may leave it
    half-changed, and nobody can lock it again. In every interleaving the till is, up to such a
    panic, one that its own runs reach, no round is made before the schedule's wait was slept or
    after a panic, and the loop ends only where it was stopped, where the till could not be locked,
    or where trying again could not help (`runs_sound`). What it makes of a round is the verdict that
    `turn` gives on it (`settle_turn`). -/

namespace Sahl

/-! ## Section 1: The loop -/

/-- What the badge shows: how syncing stands, or that the till cannot be locked any more. -/
inductive Badge where
  | sync (status : SyncStatus)
  | inconsistent

/-- Where the thread is. -/
inductive Phase where
  /-- At the head of the loop, with what it slept since the round before. -/
  | ready (waited : Duration)
  /-- The round is over and the till let go. -/
  | synced (waited : Duration) (outcome : Except SyncClientError SyncOutcome)
  | sleeping (total slept : Duration)
  | ended

/-- A round, and what was slept before it. -/
structure Round where
  waited : Duration
  outcome : Except SyncClientError SyncOutcome

structure Scheduler where
  terminal : Terminal
  /-- A command panicked while it held the till, which cannot be locked any more. -/
  poisoned : Bool
  running : Bool
  backoff : Backoff
  badge : Badge
  phase : Phase
  /-- The rounds made, the last of them first. -/
  rounds : List Round

namespace Scheduler

/-- Start syncing in the background. -/
def spawn (terminal : Terminal) (seed : BitVec 64) : Scheduler where
  terminal
  poisoned := false
  running := true
  backoff := .standard seed
  badge := .sync (.upToDate 0)
  phase := .ready .zero
  rounds := []

/-- The head of the loop, and the round that it makes. -/
def turn (digests : Digests) (s : Scheduler) (waited : Duration) (transport : Transport Payload)
    (nowMillis : I64) : Scheduler :=
  if !s.running then { s with phase := .ended }
  else if s.poisoned then { s with badge := .inconsistent, phase := .ended }
  else
    let (terminal, outcome) := s.terminal.sync digests transport nowMillis
    { s with terminal, phase := .synced waited outcome }

/-- What is still queued, as far as the till can be asked. -/
def pending (s : Scheduler) : Nat := if s.poisoned then 0 else s.terminal.store.unsyncedCount

/-- The rest of the loop, once the round is over. -/
def settle (s : Scheduler) (round : Round) : Scheduler :=
  let s := { s with rounds := round :: s.rounds }
  match round.outcome with
  | .ok result =>
    { s with
      backoff := s.backoff.reset
      badge := .sync (.upToDate s.pending)
      phase := if result.morePending then .ready .zero else .sleeping Backoff.idle .zero }
  | .error error =>
    if isTerminalFailure error then
      { s with badge := .sync (.stopped error), phase := .ended }
    else
      let (delay, backoff) := s.backoff.nextDelay
      { s with
        backoff
        badge := .sync (.retrying s.pending backoff.attempt)
        phase := .sleeping delay .zero }

/-- How long the loop sleeps without looking up. -/
def slice : Duration := .fromMillis 250

/-- The sleep looks up: it goes on for a slice, or it is over. -/
def sleepOn (s : Scheduler) (total slept : Duration) : Scheduler :=
  if slept.nanos < total.nanos ∧ s.running then
    { s with phase := .sleeping total
              (slept.saturatingAdd (slice.shorter (total.saturatingSub slept))) }
  else { s with phase := .ready slept }

inductive Action where
  /-- The cashier uses the till. -/
  | call (writable : Bool) (occurredAt : Timestamp) (call : Terminal.Call)
  /-- A command panics while it holds the till, and leaves it as it then is. -/
  | panic (terminal : Terminal)
  /-- The loop is asked to stop. -/
  | stop
  | turn (transport : Transport Payload) (nowMillis : I64)
  | settle
  | sleepOn

def step (digests : Digests) (s : Scheduler) : Action → Scheduler → Prop
  | .call writable occurredAt call, s' => s.poisoned = false ∧
      s' = { s with terminal := (s.terminal.perform digests writable occurredAt call).1 }
  | .panic terminal, s' => s.poisoned = false ∧ s' = { s with terminal, poisoned := true }
  | .stop, s' => s' = { s with running := false }
  | .turn transport nowMillis, s' => ∃ waited, s.phase = .ready waited ∧
      (s.poisoned = false → Terminal.ServesSiblings transport s.terminal.identity.deviceId) ∧
      s' = s.turn digests waited transport nowMillis
  | .settle, s' => ∃ waited outcome, s.phase = .synced waited outcome ∧
      s' = s.settle ⟨waited, outcome⟩
  | .sleepOn, s' => ∃ total slept, s.phase = .sleeping total slept ∧ s' = s.sleepOn total slept

/-- A loop that has just been started, on a till as its own runs leave it. -/
def Spawned (digests : Digests) (seed : BitVec 64) (s : Scheduler) : Prop :=
  ∃ t, Transition.Reachable Terminal.Fresh (Terminal.step digests) t ∧ s = spawn t seed

/-! ## Section 2: What the rounds call for -/

/-- A round that failed, and is tried again. -/
def retried (round : Round) : Bool :=
  match round.outcome with
  | .ok _ => false
  | .error error => !isTerminalFailure error

/-- A round that trying again could not help. -/
def final (round : Round) : Bool :=
  match round.outcome with
  | .ok _ => false
  | .error error => isTerminalFailure error

/-- Failures in a row, up to now. -/
def failures (rounds : List Round) : Nat := (rounds.takeWhile retried).length

/-- Failures in all. -/
def draws (rounds : List Round) : Nat := rounds.countP retried

/-- What is to be slept after these rounds: nothing before the first, or with more to fetch; half a
    minute where all is fetched; after failures in a row at least half of what the last of them
    calls for, and no more than that. -/
def Waits (waited : Duration) : List Round → Prop
  | [] => waited = .zero
  | last :: before =>
    (∀ result, last.outcome = .ok result →
      waited.nanos = if result.morePending then 0 else 30 * 1000000000) ∧
    (retried last → min (2 ^ failures before) 300 * 1000000000 ≤ 2 * waited.nanos ∧
      waited.nanos ≤ min (2 ^ failures before) 300 * 1000000000)

/-- Each round was made when the ones before it called for it, and none after a final one. -/
def Paced : List Round → Prop
  | [] => True
  | last :: before => Waits last.waited before ∧ (∀ round ∈ before, final round = false) ∧ Paced before

/-- What the badge should show after these rounds. -/
def Shows (rounds : List Round) : SyncStatus → Prop
  | .upToDate unsynced => (rounds = [] ∧ unsynced = 0) ∨
      ∃ last before result, rounds = last :: before ∧ last.outcome = .ok result
  | .retrying _ attempts => attempts = min (failures rounds) (2 ^ 32 - 1) ∧
      ∃ last before, rounds = last :: before ∧ retried last
  | .stopped error => isTerminalFailure error ∧
      ∃ last before, rounds = last :: before ∧ last.outcome = .error error

/-- How the loop ends. -/
inductive Ended (s : Scheduler) : Prop
  /-- It was stopped; the badge stays as the rounds left it. -/
  | stopped {status : SyncStatus} (running : s.running = false) (badge : s.badge = .sync status)
  /-- A command had panicked, and the till could not be locked. -/
  | inconsistent (poisoned : s.poisoned) (badge : s.badge = .inconsistent)
  /-- A round failed for good. -/
  | final {last : Round} {before : List Round} {error : SyncClientError}
      (rounds : s.rounds = last :: before) (outcome : last.outcome = .error error)
      (terminal : isTerminalFailure error) (badge : s.badge = .sync (.stopped error))

structure Sound (digests : Digests) (s : Scheduler) : Prop where
  /-- Unless a command panicked, the till is one that calls and rounds, one after the other, lead
      to. -/
  till : s.poisoned = false → Transition.Reachable Terminal.Fresh (Terminal.step digests) s.terminal
  paced : Paced s.rounds
  badge : ∀ status, s.badge = .sync status → Shows s.rounds status
  /-- The badge says so where the till could not be locked, and there alone. -/
  inconsistent : s.badge = .inconsistent → s.poisoned ∧ s.phase = .ended
  ended : s.phase = .ended → Ended s

/-- What also holds of a loop that has not ended. -/
structure Going (seed : BitVec 64) (s : Scheduler) : Prop where
  /-- The schedule follows from the rounds. -/
  backoff : s.backoff = .standardAt seed (failures s.rounds) (draws s.rounds)
  goesOn : ∀ round ∈ s.rounds, final round = false
  /-- A sleep is cut short only where the loop was stopped. -/
  ready : ∀ waited, s.phase = .ready waited → s.running → Waits waited s.rounds
  synced : ∀ waited outcome, s.phase = .synced waited outcome → Waits waited s.rounds
  sleeping : ∀ total slept, s.phase = .sleeping total slept →
    Waits total s.rounds ∧ slept.nanos ≤ total.nanos

def Inv (digests : Digests) (seed : BitVec 64) (s : Scheduler) : Prop :=
  Sound digests s ∧ (s.phase ≠ .ended → Going seed s)

/-- All rounds that were made, the one that is over but not yet settled included. -/
def made (s : Scheduler) : List Round :=
  match s.phase with
  | .synced waited outcome => ⟨waited, outcome⟩ :: s.rounds
  | _ => s.rounds

section Steps

variable {digests : Digests} {seed : BitVec 64} {s s' : Scheduler}

/-- A loop that has ended stays ended the same way, whoever panics or stops it then. -/
theorem Ended.mono (h : Ended s) (hpoisoned : s.poisoned → s'.poisoned)
    (hrunning : s.running = false → s'.running = false) (hbadge : s'.badge = s.badge)
    (hrounds : s'.rounds = s.rounds) : Ended s' := by
  cases h with
  | stopped running badge => exact .stopped (hrunning running) (hbadge.trans badge)
  | inconsistent poisoned badge => exact .inconsistent (hpoisoned poisoned) (hbadge.trans badge)
  | final rounds outcome terminal badge =>
    exact .final (hrounds.trans rounds) outcome terminal (hbadge.trans badge)

/-- While the loop goes on, the badge shows how syncing stands. -/
theorem Sound.badge_sync (h : Sound digests s) (hphase : s.phase ≠ .ended) :
    ∃ status, s.badge = .sync status := by
  cases hbadge : s.badge with
  | sync status => exact ⟨status, rfl⟩
  | inconsistent => exact absurd (h.inconsistent hbadge).2 hphase

theorem inv_spawned (h : Spawned digests seed s) : Inv digests seed s := by
  obtain ⟨t, ht, rfl⟩ := h
  refine ⟨⟨fun _ => ht, trivial, fun status hstatus => ?_, fun hbadge => ?_, fun hended => ?_⟩,
    fun _ => ⟨rfl, fun round hround => ?_, fun waited hready _ => ?_,
      fun waited outcome hsynced => ?_, fun total slept hsleeping => ?_⟩⟩
  · cases hstatus
    exact .inl ⟨rfl, rfl⟩
  · cases hbadge
  · cases hended
  · cases hround
  · cases hready
    rfl
  · cases hsynced
  · cases hsleeping

/-! ## Section 3: What settles a round -/

/-- The loop does with a round what `turn` says of it: it ends where that counts no attempts. -/
theorem settle_turn (s : Scheduler) (round : Round) :
    (s.settle round).badge = .sync (Sahl.turn s.backoff.attempt s.pending round.outcome).2 ∧
      ((s.settle round).phase = .ended ↔
        (Sahl.turn s.backoff.attempt s.pending round.outcome).1 = none) ∧
      ∀ attempts, (Sahl.turn s.backoff.attempt s.pending round.outcome).1 = some attempts →
        (s.settle round).backoff.attempt = attempts := by
  obtain ⟨waited, outcome⟩ := round
  cases outcome with
  | ok result =>
    refine ⟨rfl, ⟨fun hended => ?_, fun hnone => ?_⟩, fun attempts hattempts => ?_⟩
    · simp only [settle] at hended
      split at hended <;> cases hended
    · cases hnone
    · cases hattempts
      rfl
  | error error =>
    have hattempt := s.backoff.nextDelay_attempt
    cases hfinal : isTerminalFailure error with
    | true =>
      simp only [settle, Sahl.turn, hfinal, if_true]
      exact ⟨trivial, trivial, fun attempts hattempts => by cases hattempts⟩
    | false =>
      simp only [settle, Sahl.turn, hfinal, Bool.false_eq_true, if_false, hattempt,
        Option.some.injEq]
      exact ⟨rfl, ⟨fun hended => (by cases hended), fun hnone => (by cases hnone)⟩,
        fun attempts hattempts => hattempts⟩

/-- A round that succeeds sets the schedule back. -/
theorem inv_settle_ok {waited : Duration} {result : SyncOutcome} (h : Inv digests seed s)
    (hphase : s.phase = .synced waited (.ok result)) :
    Inv digests seed (s.settle ⟨waited, .ok result⟩) := by
  obtain ⟨hsound, hgoing⟩ := h
  have hgoing := hgoing (by
    rw [hphase]
    exact Phase.noConfusion)
  have hsettled : (s.settle ⟨waited, .ok result⟩).phase =
      if result.morePending then .ready .zero else .sleeping Backoff.idle .zero := rfl
  have hcons : ∀ round ∈ (⟨waited, .ok result⟩ :: s.rounds : List Round), final round = false := by
    intro round hround
    rcases List.mem_cons.mp hround with rfl | hround
    · rfl
    · exact hgoing.goesOn round hround
  refine ⟨⟨hsound.till, ⟨hgoing.synced _ _ hphase, hgoing.goesOn, hsound.paced⟩,
    fun status hstatus => ?_, fun hbadge => ?_, fun hended => ?_⟩, fun _ =>
    ⟨?_, hcons, fun waited' hready _ => ?_, fun waited' outcome hsynced => ?_,
      fun total slept hsleeping => ?_⟩⟩
  · cases hstatus
    exact .inr ⟨_, _, result, rfl, rfl⟩
  · cases hbadge
  · rw [hsettled] at hended
    split at hended <;> cases hended
  · show s.backoff.reset = _
    rw [hgoing.backoff, Backoff.standardAt_reset]
    rfl
  · rw [hsettled] at hready
    split at hready
    · rename_i hmore
      cases hready
      refine ⟨fun result' hresult => ?_, fun hretried => (by cases hretried)⟩
      cases hresult
      rw [if_pos hmore]
      rfl
    · cases hready
  · rw [hsettled] at hsynced
    split at hsynced <;> cases hsynced
  · rw [hsettled] at hsleeping
    split at hsleeping
    · cases hsleeping
    · rename_i hmore
      cases hsleeping
      refine ⟨⟨fun result' hresult => ?_, fun hretried => (by cases hretried)⟩, Nat.zero_le _⟩
      cases hresult
      rw [if_neg hmore]
      decide

/-- A round that failed for good ends the loop. -/
theorem inv_settle_final {waited : Duration} {error : SyncClientError} (h : Inv digests seed s)
    (hphase : s.phase = .synced waited (.error error)) (hfinal : isTerminalFailure error = true) :
    Inv digests seed (s.settle ⟨waited, .error error⟩) := by
  obtain ⟨hsound, hgoing⟩ := h
  have hgoing := hgoing (by
    rw [hphase]
    exact Phase.noConfusion)
  have hsettled : s.settle ⟨waited, .error error⟩ =
      { s with
        rounds := ⟨waited, .error error⟩ :: s.rounds
        badge := .sync (.stopped error)
        phase := .ended } := if_pos hfinal
  rw [hsettled]
  refine ⟨⟨hsound.till, ⟨hgoing.synced _ _ hphase, hgoing.goesOn, hsound.paced⟩,
    fun status hstatus => ?_, fun hbadge => ?_, fun _ => .final rfl rfl hfinal rfl⟩,
    fun hended => absurd rfl hended⟩
  · cases hstatus
    exact ⟨hfinal, _, _, rfl, rfl⟩
  · cases hbadge

/-- A round that failed for now is followed by a wait as long as the failures before it call for. -/
theorem inv_settle_retried {waited : Duration} {error : SyncClientError} (h : Inv digests seed s)
    (hphase : s.phase = .synced waited (.error error)) (hfinal : isTerminalFailure error = false) :
    Inv digests seed (s.settle ⟨waited, .error error⟩) := by
  obtain ⟨hsound, hgoing⟩ := h
  have hgoing := hgoing (by
    rw [hphase]
    exact Phase.noConfusion)
  have hretried : retried ⟨waited, .error error⟩ = true := by
    show (!isTerminalFailure error) = true
    rw [hfinal]
    rfl
  have hsettled : s.settle ⟨waited, .error error⟩ =
      { s with
        rounds := ⟨waited, .error error⟩ :: s.rounds
        backoff := s.backoff.nextDelay.2
        badge := .sync (.retrying s.pending s.backoff.nextDelay.2.attempt)
        phase := .sleeping s.backoff.nextDelay.1 .zero } := if_neg (by
    rw [hfinal]
    exact Bool.false_ne_true)
  have hfailures : failures (⟨waited, .error error⟩ :: s.rounds) = failures s.rounds + 1 := by
    rw [failures, List.takeWhile_cons_of_pos hretried]
    rfl
  have hdraws : draws (⟨waited, .error error⟩ :: s.rounds) = draws s.rounds + 1 :=
    List.countP_cons_of_pos hretried
  have hnext : s.backoff.nextDelay.2 = .standardAt seed
      (failures (⟨waited, .error error⟩ :: s.rounds))
      (draws (⟨waited, .error error⟩ :: s.rounds)) := by
    rw [hgoing.backoff, Backoff.standardAt_next, hfailures, hdraws]
  obtain ⟨hlong, hshort⟩ := s.backoff.nextDelay_bounds
  have hcapped : s.backoff.capped.nanos = min (2 ^ failures s.rounds) 300 * 1000000000 := by
    rw [hgoing.backoff, Backoff.standardAt_capped]
  rw [hcapped] at hlong hshort
  rw [hsettled]
  refine ⟨⟨hsound.till, ⟨hgoing.synced _ _ hphase, hgoing.goesOn, hsound.paced⟩,
    fun status hstatus => ?_, fun hbadge => ?_, fun hended => ?_⟩, fun _ =>
    ⟨hnext, fun round hround => ?_, fun waited' hready _ => ?_, fun waited' outcome hsynced => ?_,
      fun total slept hsleeping => ?_⟩⟩
  · cases hstatus
    refine ⟨?_, _, _, rfl, hretried⟩
    rw [hnext]
    rfl
  · cases hbadge
  · cases hended
  · rcases List.mem_cons.mp hround with rfl | hround
    · exact hfinal
    · exact hgoing.goesOn round hround
  · cases hready
  · cases hsynced
  · cases hsleeping
    refine ⟨⟨fun result hresult => (by cases hresult), fun _ => ⟨?_, hshort⟩⟩, Nat.zero_le _⟩
    -- a whole number of seconds is an even number of nanoseconds
    omega

/-! ## Section 4: Every run -/

/-- The loop makes a round where it runs on a till that can be locked, and ends elsewhere. -/
theorem inv_turn {waited : Duration} {transport : Transport Payload} {nowMillis : I64}
    (h : Inv digests seed s) (hphase : s.phase = .ready waited)
    (hserves : s.poisoned = false →
      Terminal.ServesSiblings transport s.terminal.identity.deviceId) :
    Inv digests seed (s.turn digests waited transport nowMillis) := by
  obtain ⟨hsound, hgoing⟩ := h
  have hnotEnded : s.phase ≠ .ended := by
    rw [hphase]
    exact Phase.noConfusion
  have hgoing := hgoing hnotEnded
  obtain ⟨status, hbadge⟩ := hsound.badge_sync hnotEnded
  have hno : s.badge ≠ .inconsistent := fun hbadge => hnotEnded (hsound.inconsistent hbadge).2
  cases hrunning : s.running with
  | false =>
    have hturn : s.turn digests waited transport nowMillis = { s with phase := .ended } :=
      if_pos (by rw [hrunning]; rfl)
    rw [hturn]
    exact ⟨⟨hsound.till, hsound.paced, hsound.badge, fun hbadge => absurd hbadge hno,
      fun _ => .stopped hrunning hbadge⟩, fun hended => absurd rfl hended⟩
  | true =>
    have hgo : ¬ (!s.running) = true := by
      rw [hrunning]
      exact Bool.false_ne_true
    cases hpoisoned : s.poisoned with
    | true =>
      have hturn : s.turn digests waited transport nowMillis =
          { s with badge := .inconsistent, phase := .ended } :=
        (if_neg hgo).trans (if_pos hpoisoned)
      rw [hturn]
      exact ⟨⟨hsound.till, hsound.paced, fun status hstatus => (by cases hstatus),
        fun _ => ⟨hpoisoned, rfl⟩, fun _ => .inconsistent hpoisoned rfl⟩,
        fun hended => absurd rfl hended⟩
    | false =>
      have hturn : s.turn digests waited transport nowMillis =
          { s with
            terminal := (s.terminal.sync digests transport nowMillis).1
            phase := .synced waited (s.terminal.sync digests transport nowMillis).2 } :=
        (if_neg hgo).trans (if_neg (by
          rw [hpoisoned]
          exact Bool.false_ne_true))
      rw [hturn]
      refine ⟨⟨fun _ => ?_, hsound.paced, hsound.badge, fun hbadge => absurd hbadge hno,
        fun hended => (by cases hended)⟩, fun _ =>
        ⟨hgoing.backoff, hgoing.goesOn, fun waited' hready => (by cases hready),
          fun waited' outcome hsynced => ?_, fun total slept hsleeping => (by cases hsleeping)⟩⟩
      · exact .step (.sync transport nowMillis) (hsound.till hpoisoned) ⟨hserves hpoisoned, rfl⟩
      · cases hsynced
        exact hgoing.ready _ hphase hrunning

/-- A sleep never runs over, and comes short only of a loop that was stopped. -/
theorem inv_sleepOn {total slept : Duration} (h : Inv digests seed s)
    (hphase : s.phase = .sleeping total slept) : Inv digests seed (s.sleepOn total slept) := by
  obtain ⟨hsound, hgoing⟩ := h
  have hnotEnded : s.phase ≠ .ended := by
    rw [hphase]
    exact Phase.noConfusion
  have hgoing := hgoing hnotEnded
  have hno : s.badge ≠ .inconsistent := fun hbadge => hnotEnded (hsound.inconsistent hbadge).2
  obtain ⟨hwaits, hslept⟩ := hgoing.sleeping _ _ hphase
  unfold sleepOn
  split
  · rename_i hon
    refine ⟨⟨hsound.till, hsound.paced, hsound.badge, fun hbadge => absurd hbadge hno,
      fun hended => (by cases hended)⟩, fun _ =>
      ⟨hgoing.backoff, hgoing.goesOn, fun waited hready => (by cases hready),
        fun waited outcome hsynced => (by cases hsynced), fun total' slept' hsleeping => ?_⟩⟩
    cases hsleeping
    refine ⟨hwaits, ?_⟩
    have hstep : (slice.shorter (total.saturatingSub slept)).nanos ≤ total.nanos - slept.nanos := by
      rw [Duration.shorter_nanos]
      exact Nat.min_le_right _ _
    show min (slept.nanos + (slice.shorter (total.saturatingSub slept)).nanos) _ ≤ total.nanos
    omega
  · rename_i hover
    refine ⟨⟨hsound.till, hsound.paced, hsound.badge, fun hbadge => absurd hbadge hno,
      fun hended => (by cases hended)⟩, fun _ =>
      ⟨hgoing.backoff, hgoing.goesOn, fun waited hready hrunning => ?_,
        fun waited outcome hsynced => (by cases hsynced),
        fun total' slept' hsleeping => (by cases hsleeping)⟩⟩
    cases hready
    have hall : slept = total := by
      refine Duration.ext (Nat.le_antisymm hslept ?_)
      exact Nat.le_of_not_lt fun hless => hover ⟨hless, hrunning⟩
    rw [hall]
    exact hwaits

theorem inv_step {action : Action} (h : Inv digests seed s) (hstep : step digests s action s') :
    Inv digests seed s' := by
  cases action with
  | call writable occurredAt call =>
    obtain ⟨hfree, rfl⟩ := hstep
    obtain ⟨hsound, hgoing⟩ := h
    have hcalled : Terminal.step digests s.terminal (.call writable occurredAt call)
      (s.terminal.perform digests writable occurredAt call).1 := rfl
    refine ⟨⟨fun _ => .step _ (hsound.till hfree) hcalled, hsound.paced, hsound.badge,
      hsound.inconsistent, fun hphase => ?_⟩, fun hphase => ?_⟩
    · exact (hsound.ended hphase).mono id id rfl rfl
    · exact ⟨(hgoing hphase).backoff, (hgoing hphase).goesOn, (hgoing hphase).ready,
        (hgoing hphase).synced, (hgoing hphase).sleeping⟩
  | panic terminal =>
    obtain ⟨hfree, rfl⟩ := hstep
    obtain ⟨hsound, hgoing⟩ := h
    refine ⟨⟨fun hpoisoned => (by cases hpoisoned), hsound.paced, hsound.badge,
      fun hbadge => ⟨rfl, (hsound.inconsistent hbadge).2⟩, fun hphase => ?_⟩, fun hphase => ?_⟩
    · exact (hsound.ended hphase).mono (fun hpoisoned => rfl) id rfl rfl
    · exact ⟨(hgoing hphase).backoff, (hgoing hphase).goesOn, (hgoing hphase).ready,
        (hgoing hphase).synced, (hgoing hphase).sleeping⟩
  | stop =>
    cases hstep
    obtain ⟨hsound, hgoing⟩ := h
    refine ⟨⟨hsound.till, hsound.paced, hsound.badge, hsound.inconsistent, fun hphase => ?_⟩,
      fun hphase => ?_⟩
    · exact (hsound.ended hphase).mono id (fun _ => rfl) rfl rfl
    · exact ⟨(hgoing hphase).backoff, (hgoing hphase).goesOn,
        fun waited _ hrunning => (by cases hrunning), (hgoing hphase).synced,
        (hgoing hphase).sleeping⟩
  | turn transport nowMillis =>
    obtain ⟨waited, hphase, hserves, rfl⟩ := hstep
    exact inv_turn h hphase hserves
  | settle =>
    obtain ⟨waited, outcome, hphase, rfl⟩ := hstep
    cases outcome with
    | ok result => exact inv_settle_ok h hphase
    | error error =>
      cases hfinal : isTerminalFailure error with
      | true => exact inv_settle_final h hphase hfinal
      | false => exact inv_settle_retried h hphase hfinal
  | sleepOn =>
    obtain ⟨total, slept, hphase, rfl⟩ := hstep
    exact inv_sleepOn h hphase

/-- Once a command has panicked, nobody touches the till and no round is made. -/
theorem untouched_step {action : Action} (h : s.poisoned) (hstep : step digests s action s') :
    s'.poisoned ∧ s'.terminal = s.terminal ∧ s'.made = s.made := by
  cases action with
  | call writable occurredAt call =>
    rw [hstep.1] at h
    cases h
  | panic terminal =>
    rw [hstep.1] at h
    cases h
  | stop =>
    cases hstep
    exact ⟨h, rfl, rfl⟩
  | turn transport nowMillis =>
    obtain ⟨waited, hphase, -, rfl⟩ := hstep
    unfold turn made
    rw [hphase]
    cases hrunning : s.running with
    | false => exact ⟨h, rfl, rfl⟩
    | true =>
      simp only [h, Bool.not_true, Bool.false_eq_true, if_false, if_true]
      exact ⟨trivial, trivial, trivial⟩
  | settle =>
    obtain ⟨waited, outcome, hphase, rfl⟩ := hstep
    unfold made
    rw [hphase]
    cases outcome with
    | ok result =>
      unfold settle
      cases hmore : result.morePending <;> simp [hmore, h]
    | error error =>
      unfold settle
      cases hfinal : isTerminalFailure error <;> simp [hfinal, h]
  | sleepOn =>
    obtain ⟨total, slept, hphase, rfl⟩ := hstep
    unfold sleepOn made
    rw [hphase]
    split <;> exact ⟨h, rfl, rfl⟩

theorem untouched_run {actions : List Action} (h : s.poisoned)
    (hrun : Transition.Run (step digests) s actions s') :
    s'.terminal = s.terminal ∧ s'.made = s.made := by
  refine (hrun.invariant (I := fun later => later.poisoned ∧ later.terminal = s.terminal ∧
    later.made = s.made) (fun later a next hlater hstep => ?_) ⟨h, rfl, rfl⟩).2
  obtain ⟨hpoisoned, hterminal, hmade⟩ := untouched_step hlater.1 hstep
  exact ⟨hpoisoned, hterminal.trans hlater.2.1, hmade.trans hlater.2.2⟩

/-- **The loop is sound**: however the cashier's calls, a command that panics, a stop and the loop
    come between each other, each round was made when the schedule called for it, the badge says
    how the last one went or that the till could not be locked, and the loop ended only where it
    was stopped, the till could not be locked, or a round had failed for good. The till is one that
    calls and rounds one after the other lead to, up to a panic; after one, the till stays as the
    panic left it and no further round is made. -/
theorem runs_sound (h : Transition.Reachable (Spawned digests seed) (step digests) s) :
    Sound digests s ∧ (s.poisoned → ∀ actions s', Transition.Run (step digests) s actions s' →
      s'.terminal = s.terminal ∧ s'.made = s.made) :=
  ⟨(h.invariant (I := Inv digests seed) (fun _ => inv_spawned) (fun _ _ _ => inv_step)).1,
    fun hpoisoned _ _ hrun => untouched_run hpoisoned hrun⟩

end Steps

/-- A server that cannot be reached. -/
def unreachable : Transport Payload where
  push := fun _ => .error .unavailable
  pull := fun _ _ => .error .unavailable

/-- The first round fails, while the cashier goes on. -/
def firstFailed : Scheduler :=
  ((spawn Terminal.till3 7).turn Terminal.plainDigests .zero unreachable 0).settle
    ⟨.zero, .error (.refused .unavailable)⟩

theorem runs_sound_firstFailed : firstFailed.badge = .sync (.retrying 0 1) ∧
    Sound Terminal.plainDigests firstFailed := by
  have hserves : Terminal.ServesSiblings unreachable Terminal.till3.identity.deviceId := by
    intro cursor page hpage
    cases hpage
  have hround : step Terminal.plainDigests (spawn Terminal.till3 7) (.turn unreachable 0)
      ((spawn Terminal.till3 7).turn Terminal.plainDigests .zero unreachable 0) :=
    ⟨.zero, rfl, fun _ => hserves, rfl⟩
  have hsettled : step Terminal.plainDigests
      ((spawn Terminal.till3 7).turn Terminal.plainDigests .zero unreachable 0) .settle
      firstFailed := ⟨.zero, _, rfl, rfl⟩
  exact ⟨rfl, (runs_sound (.step .settle (.step (.turn unreachable 0)
    (.init ⟨_, .init ⟨_, rfl⟩, rfl⟩) hround) hsettled)).1⟩

end Scheduler

end Sahl
