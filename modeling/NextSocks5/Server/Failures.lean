import NextSocks5.Library.FixedWindow
import NextSocks5.Server.Outbound

set_option autoImplicit false

namespace NextSocks5

namespace Udp

open FixedWindow (Span Paced between uses)

def failedLookup (a : Association) (s : State) (d : Arrival) : Option (State × String) :=
  match decapRef d.data with
  | .error _ => none
  | .ok datagram =>
      if datagram.frag ≠ 0 then none
      else if !(checkRate a s).2 then none
      else
        match resolveTarget a d datagram.address with
        | .failed msg => some (afterLookup (checkRate a s).1 d datagram.address, msg)
        | _ => none

structure Failure where
  time : Nat
  msg : String
  told : Bool
deriving DecidableEq, Repr

def failures (a : Association) (s : State) : Nat × Wake → List Failure
  | (now, .datagram d) =>
      if isClient a { s with now := now } d.src then
        match failedLookup a (lock { s with now := now } d.src) d with
        | some (mid, msg) => [⟨mid.now, msg, dnsErrorDue mid⟩]
        | none => []
      else []
  | _ => []

def reported (a : Association) : Machine (State × List Failure) (Nat × Wake) Output where
  step s event := ((machine a).step s.1 event).map fun (after, made) => ((after, s.2 ++ failures a s.1 event), made)

def told (history : List Failure) : List Failure := history.filter Failure.told

def Failure.event (failure : Failure) : Event := .error Socks5Error.hostUnreachable.replyCode failure.msg

def errorsIn (outputs : List Output) : List Event :=
  outputs.filterMap fun output =>
    match output with
    | .emit (.error code msg) => some (.error code msg)
    | _ => none

structure Unreported (s after : State) (made : List Output) : Prop where
  last : after.lastDnsError = s.lastDnsError
  quiet : errorsIn made = []
  later : s.now ≤ after.now

theorem unreported_from (s mid after : State) (made : List Output) (last : mid.lastDnsError = s.lastDnsError) (later : s.now ≤ mid.now)
    (rest : Unreported mid after made) : Unreported s after made :=
  ⟨rest.last.trans last, rest.quiet, later.trans rest.later⟩

theorem unreported_same (s : State) : Unreported s s [] := ⟨rfl, rfl, Nat.le_refl _⟩

theorem track_target_last (a : Association) (s : State) (target : SocketAddr) :
    (trackTarget a s target).lastDnsError = s.lastDnsError ∧ (trackTarget a s target).now = s.now := by
  rw [trackTarget]
  split
  · exact ⟨rfl, rfl⟩
  · dsimp only
    split
    · cases s.knownOrder ++ [target] <;> exact ⟨rfl, rfl⟩
    · exact ⟨rfl, rfl⟩

theorem charge_rate_last (a : Association) (s : State) : (chargeRate a s).lastDnsError = s.lastDnsError ∧ (chargeRate a s).now = s.now := by
  rw [chargeRate]
  split <;> exact ⟨rfl, rfl⟩

theorem send_to_target_unreported (a : Association) (s : State) (d : Arrival) (data : Bytes) (target : SocketAddr) :
    Unreported s (sendToTarget a s d data target).1 (sendToTarget a s d data target).2 := by
  rw [sendToTarget]
  cases d.sent with
  | false => exact ⟨rfl, rfl, Nat.le_add_right _ _⟩
  | true =>
      obtain ⟨trackedLast, trackedNow⟩ := track_target_last a (chargeRate a { s with now := s.now + d.sendTook }) target
      obtain ⟨chargedLast, chargedNow⟩ := charge_rate_last a { s with now := s.now + d.sendTook }
      refine ⟨trackedLast.trans chargedLast, rfl, ?_⟩
      rw [if_pos rfl, trackedNow, chargedNow]
      exact Nat.le_add_right _ _

theorem check_rate_last (a : Association) (s : State) : (checkRate a s).1.lastDnsError = s.lastDnsError ∧ (checkRate a s).1.now = s.now := by
  rw [checkRate]
  cases a.cfg.limits.udpRatePps with
  | none => exact ⟨rfl, rfl⟩
  | some limit =>
      dsimp only
      split <;> exact ⟨rfl, rfl⟩

theorem after_lookup_last (s : State) (d : Arrival) (address : Address) :
    (afterLookup s d address).lastDnsError = s.lastDnsError ∧ s.now ≤ (afterLookup s d address).now := by
  cases address with
  | domain host port => exact ⟨rfl, Nat.le_add_right _ _⟩
  | _ => exact ⟨rfl, Nat.le_refl _⟩

theorem relay_to_target_reports (a : Association) (s : State) (d : Arrival) :
    match failedLookup a s d with
    | some (mid, msg) => relayToTarget a s d = reportDns mid msg ∧ mid.lastDnsError = s.lastDnsError ∧ s.now ≤ mid.now
    | none => Unreported s (relayToTarget a s d).1 (relayToTarget a s d).2 := by
  rw [failedLookup, relayToTarget]
  obtain ⟨rateLast, rateNow⟩ := check_rate_last a s
  cases decapRef d.data with
  | error reason => exact unreported_same s
  | ok datagram =>
      dsimp only
      obtain ⟨lookupLast, lookupNow⟩ := after_lookup_last (checkRate a s).1 d datagram.address
      have last := lookupLast.trans rateLast
      have later : s.now ≤ (afterLookup (checkRate a s).1 d datagram.address).now := by omega
      by_cases whole : datagram.frag = 0
      · rw [if_neg (not_not.mpr whole), if_neg (not_not.mpr whole)]
        cases allowed : (checkRate a s).2 with
        | false => exact ⟨rateLast, rfl, rateNow.ge⟩
        | true =>
            simp only [Bool.not_true, Bool.false_eq_true, if_false]
            cases resolveTarget a d datagram.address with
            | unusable => exact ⟨last, rfl, later⟩
            | failed msg => exact ⟨rfl, last, later⟩
            | found target =>
                dsimp only
                by_cases blocked : a.cfg.egress.isBlocked target.ip = true
                · rw [if_pos blocked]
                  exact ⟨last, rfl, later⟩
                · rw [if_neg blocked]
                  exact unreported_from s _ _ _ last later (send_to_target_unreported a _ d datagram.data target)
      · rw [if_pos whole, if_pos whole]
        exact unreported_same s

-- What a step does about a failed lookup: it tells of it, or has told of one less than a second ago.
inductive Reports (s after : State) (made : List Output) : List Failure → Prop where
  | silent (unreported : Unreported s after made) : Reports s after made []
  | told (msg : String) (later : s.now ≤ after.now) (apart : ∀ last, s.lastDnsError = some last → secondNs ≤ after.now - last)
      (noted : after.lastDnsError = some after.now) (emitted : errorsIn made = [Failure.event ⟨after.now, msg, true⟩]) :
      Reports s after made [⟨after.now, msg, true⟩]
  | held (msg : String) (last : Nat) (recent : s.lastDnsError = some last) (near : after.now - last < secondNs)
      (unreported : Unreported s after made) : Reports s after made [⟨after.now, msg, false⟩]

theorem report_dns_reports (s mid : State) (msg : String) (same : mid.lastDnsError = s.lastDnsError) (later : s.now ≤ mid.now) :
    Reports s (wait (reportDns mid msg).1) (reportDns mid msg).2 [⟨mid.now, msg, dnsErrorDue mid⟩] := by
  rw [reportDns]
  cases due : dnsErrorDue mid with
  | true =>
      refine .told msg later ?_ rfl rfl
      intro last known
      rw [dnsErrorDue, same, known] at due
      exact of_decide_eq_true due
  | false =>
      cases known : mid.lastDnsError with
      | none => simp [dnsErrorDue, known] at due
      | some last =>
          rw [dnsErrorDue, known] at due
          exact .held msg last (same ▸ known) (Nat.not_le.mp (of_decide_eq_false due)) ⟨same, rfl, later⟩

theorem datagram_reports (a : Association) (s : State) (now : Nat) (d : Arrival) (onwards : s.now ≤ now) :
    Reports s (wait (onDatagram a { s with now := now } d).1) (onDatagram a { s with now := now } d).2 (failures a s (now, .datagram d)) := by
  rw [onDatagram, failures]
  cases isClient a { s with now := now } d.src with
  | true =>
      simp only [if_true]
      have reports := relay_to_target_reports a (lock { s with now := now } d.src) d
      cases failed : failedLookup a (lock { s with now := now } d.src) d with
      | none =>
          rw [failed] at reports
          exact .silent ⟨reports.last, reports.quiet, onwards.trans reports.later⟩
      | some result =>
          rw [failed] at reports
          obtain ⟨relayed, same, later⟩ := reports
          rw [relayed]
          exact report_dns_reports s result.1 result.2 same (onwards.trans later)
  | false =>
      simp only [Bool.false_eq_true, if_false]
      split
      · split
        · exact .silent ⟨rfl, rfl, Nat.le_add_right_of_le onwards⟩
        · exact .silent ⟨rfl, rfl, onwards⟩
      · exact .silent ⟨rfl, rfl, onwards⟩

theorem step_reports (a : Association) (s after : State) (event : Nat × Wake) (made : List Output)
    (stepped : (machine a).step s event = some (after, made)) : Reports s after made (failures a s event) := by
  obtain ⟨now, wake⟩ := event
  simp only [machine, Option.ite_none_left_eq_some, Bool.or_eq_true, decide_eq_true_eq, not_or, not_lt] at stepped
  obtain ⟨⟨_, onwards⟩, handled⟩ := stepped
  cases wake with
  | datagram d =>
      simp only [handle, Option.some.injEq, Prod.mk.injEq] at handled
      obtain ⟨rfl, rfl⟩ := handled
      exact datagram_reports a s now d onwards
  | recvFailed =>
      cases handled
      exact .silent ⟨rfl, rfl, onwards⟩
  | idleElapsed =>
      simp only [handle, Option.ite_none_left_eq_some] at handled
      cases handled.2
      exact .silent ⟨rfl, rfl, onwards⟩
  | control closed =>
      cases closed with
      | true =>
          cases handled
          exact .silent ⟨rfl, rfl, onwards⟩
      | false =>
          cases handled
          exact .silent ⟨rfl, rfl, onwards⟩
  | shutdown closing =>
      cases closing with
      | true =>
          cases handled
          exact .silent ⟨rfl, rfl, onwards⟩
      | false =>
          cases handled
          exact .silent ⟨rfl, rfl, onwards⟩

def times (history : List Failure) : List Nat := (told history).map Failure.time

def windows (history : List Failure) : List Span := (times history).reverse.map fun instant => ⟨instant, [instant]⟩

structure Throttled (outputs : List Output) (s : State) (history : List Failure) : Prop where
  emitted : errorsIn outputs = (told history).map Failure.event
  last : (times history).reverse.head? = s.lastDnsError
  past : ∀ last, s.lastDnsError = some last → last ≤ s.now
  paced : Paced secondNs 1 (windows history)
  covered : ∀ failure ∈ history, ∃ reportedIt ∈ told history, reportedIt.time ≤ failure.time ∧ failure.time < reportedIt.time + secondNs

theorem told_append (first second : List Failure) : told (first ++ second) = told first ++ told second := List.filter_append ..

theorem errors_in_append (first second : List Output) : errorsIn (first ++ second) = errorsIn first ++ errorsIn second :=
  List.filterMap_append

theorem times_snoc (history : List Failure) (time : Nat) (msg : String) :
    (times (history ++ [⟨time, msg, true⟩])).reverse = time :: (times history).reverse := by
  simp [times, told]

theorem windows_use (history : List Failure) (time : Nat) (msg : String) (paced : Paced secondNs 1 (windows history))
    (apart : ∀ last, (times history).reverse.head? = some last → last + secondNs ≤ time) :
    Paced secondNs 1 (windows (history ++ [⟨time, msg, true⟩])) := by
  rw [windows, times_snoc, List.map_cons]
  rw [windows] at paced
  cases earlier : (times history).reverse with
  | nil => exact FixedWindow.paced_use ⟨time, []⟩ [] time (FixedWindow.paced_single time) Nat.zero_lt_one (Nat.le_refl _)
  | cons last rest =>
      rw [earlier] at paced apart
      have long : last + secondNs ≤ time := apart last rfl
      have opened := FixedWindow.paced_open ⟨last, [last]⟩ _ time paced long (by
        intro instant used
        rw [List.mem_singleton.mp used]
        omega)
      exact FixedWindow.paced_use ⟨time, []⟩ _ time opened Nat.zero_lt_one (Nat.le_refl _)

theorem throttled_step (outputs made : List Output) (s after : State) (history found : List Failure)
    (inv : Throttled outputs s history) (reports : Reports s after made found) : Throttled (outputs ++ made) after (history ++ found) := by
  have past := inv.past
  cases reports with
  | silent unreported =>
      have later := unreported.later
      refine ⟨?_, ?_, ?_, ?_, ?_⟩
      · rw [errors_in_append, unreported.quiet, List.append_nil, List.append_nil, inv.emitted]
      · rw [List.append_nil, unreported.last, inv.last]
      · intro last known
        exact (past last (unreported.last ▸ known)).trans later
      · rw [List.append_nil]
        exact inv.paced
      · rw [List.append_nil]
        exact inv.covered
  | told msg later apart noted emitted =>
      refine ⟨?_, ?_, ?_, ?_, ?_⟩
      · rw [errors_in_append, told_append, List.map_append, inv.emitted, emitted]
        rfl
      · rw [times_snoc, noted]
        rfl
      · intro last known
        cases noted.symm.trans known
        exact Nat.le_refl _
      · refine windows_use history after.now msg inv.paced ?_
        intro last known
        rw [inv.last] at known
        have long := apart last known
        have before := past last known
        rw [secondNs] at long ⊢
        omega
      · intro failure member
        rw [told_append]
        rcases List.mem_append.mp member with old | new
        · obtain ⟨reportedIt, known, near⟩ := inv.covered failure old
          exact ⟨reportedIt, List.mem_append_left _ known, near⟩
        · rw [List.mem_singleton.mp new]
          exact ⟨_, List.mem_append_right _ List.mem_cons_self, Nat.le_refl _, Nat.lt_add_of_pos_right (by decide)⟩
  | held msg last recent near unreported =>
      have later := unreported.later
      have quiet : told (history ++ [⟨after.now, msg, false⟩]) = told history := by
        rw [told_append]
        exact List.append_nil _
      refine ⟨?_, ?_, ?_, ?_, ?_⟩
      · rw [errors_in_append, unreported.quiet, List.append_nil, quiet, inv.emitted]
      · rw [times, quiet, unreported.last]
        exact inv.last
      · intro other known
        exact (past other (unreported.last ▸ known)).trans later
      · rw [windows, times, quiet]
        exact inv.paced
      · intro failure member
        rw [quiet]
        rcases List.mem_append.mp member with old | new
        · exact inv.covered failure old
        · rw [List.mem_singleton.mp new]
          have noted : last ∈ times history := List.mem_reverse.mp (List.mem_of_head? (inv.last.trans recent))
          obtain ⟨reportedIt, known, rfl⟩ := List.mem_map.mp noted
          have before := past reportedIt.time recent
          refine ⟨reportedIt, known, before.trans later, ?_⟩
          show after.now < reportedIt.time + secondNs
          omega

theorem reported_run (a : Association) (s : State) (history : List Failure) (events : List (Nat × Wake)) (outputs : List Output)
    (after : State) (run : (machine a).Run s events outputs after) :
    ∃ later, (reported a).Run (s, history) events outputs (after, later) := by
  induction run with
  | idle => exact ⟨history, .idle⟩
  | @next _ _ state _ event made after stepped ih =>
      obtain ⟨later, before⟩ := ih
      have answered : (reported a).step (state, later) event = some ((after, later ++ failures a state event), made) := by
        simp [reported, stepped]
      exact ⟨_, before.next event made _ answered⟩

theorem run_of_reported (a : Association) (started : Nat) (events : List (Nat × Wake)) (outputs : List Output) (s : State)
    (history : List Failure) (run : (reported a).Run (start started, []) events outputs (s, history)) :
    (machine a).Run (start started) events outputs s := by
  refine (reported a).run_invariant (start started, []) (fun events outputs s => (machine a).Run (start started) events outputs s.1)
    .idle ?_ events outputs (s, history) run
  intro events outputs s event after made before stepped
  simp only [reported, Option.map_eq_some_iff, Prod.exists, Prod.mk.injEq] at stepped
  obtain ⟨next, _, taken, rfl, rfl⟩ := stepped
  exact before.next event _ next taken

theorem run_throttled (a : Association) (started : Nat) (events : List (Nat × Wake)) (outputs : List Output) (s : State × List Failure)
    (run : (reported a).Run (start started, []) events outputs s) : Throttled outputs s.1 s.2 := by
  refine (reported a).run_invariant (start started, []) (fun _ outputs s => Throttled outputs s.1 s.2) ?_ ?_ events outputs s run
  · exact ⟨rfl, rfl, by simp [start], ⟨.nil, by simp [windows, times, told], by simp [windows, times, told]⟩, by simp⟩
  · intro _ outputs s event after made inv stepped
    simp only [reported, Option.map_eq_some_iff, Prod.exists, Prod.mk.injEq] at stepped
    obtain ⟨next, _, taken, rfl, rfl⟩ := stepped
    exact throttled_step outputs _ s.1 next s.2 _ inv (step_reports a s.1 next event _ taken)

theorem uses_windows (history : List Failure) : FixedWindow.uses (windows history) = (times history).reverse := by
  rw [FixedWindow.uses, windows, List.flatMap_map]
  exact List.flatMap_singleton' _

-- However fast lookups fail, an association tells of them at most once a second, and of none later than a second after the
-- one it told of.
theorem dns_errors_paced (a : Association) (started : Nat) (events : List (Nat × Wake)) (outputs : List Output) (s : State)
    (run : (machine a).Run (start started) events outputs s) :
    ∃ history, (reported a).Run (start started, []) events outputs (s, history) ∧ errorsIn outputs = (told history).map Failure.event ∧
      (∀ failure ∈ history, ∃ reportedIt ∈ told history, reportedIt.time ≤ failure.time ∧ failure.time < reportedIt.time + secondNs) ∧
      ∀ start stop k, stop ≤ start + k * secondNs → between start stop (times history) ≤ k + 1 := by
  obtain ⟨history, seen⟩ := reported_run a (start started) [] events outputs s run
  have throttled := run_throttled a started events outputs (s, history) seen
  refine ⟨history, seen, throttled.emitted, throttled.covered, ?_⟩
  intro start stop k short
  have few := FixedWindow.uses_between (windows history) throttled.paced start stop k short
  rw [uses_windows, between, List.countP_reverse, Nat.mul_one] at few
  exact few

def failingArrival : Arrival :=
  ⟨[0, 0, 0, 3, 1, 97, 0, 53, 1, 2], .v4 (.new 192 0 2 7) 5000, ⟨fun _ => .error "timed out", fun _ => .ok []⟩, 5, 0, true⟩

-- The second lookup fails too early to be told of, the third does not.
theorem dns_errors_paced_thrice : ∃ (outputs : List Output) (history : List Failure), times history = [15, 1000000020] ∧
    errorsIn outputs = (told history).map Failure.event ∧ between 15 (15 + 1 * secondNs) (times history) ≤ 1 + 1 := by
  have ran : ((reported query53).exec (start 0, []) [(10, .datagram failingArrival), (1000, .datagram failingArrival),
      (1000000015, .datagram failingArrival)]).map (fun ended => times ended.2.2) = some [15, 1000000020] := by decide +kernel
  obtain ⟨⟨outputs, s, history⟩, done, noted⟩ := Option.map_eq_some_iff.mp ran
  have seen := (reported query53).exec_run _ _ _ _ done
  have run := run_of_reported query53 0 _ outputs s history seen
  obtain ⟨other, again, emitted, _, few⟩ := dns_errors_paced query53 0 _ outputs s run
  obtain ⟨_, same⟩ := (reported query53).run_deterministic _ _ _ _ _ _ seen again
  cases same
  exact ⟨outputs, history, noted, emitted, few 15 _ 1 (Nat.le_refl _)⟩

end Udp

end NextSocks5
