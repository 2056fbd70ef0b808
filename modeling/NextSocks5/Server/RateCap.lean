import NextSocks5.Library.FixedWindow
import NextSocks5.Server.Outbound

set_option autoImplicit false

namespace NextSocks5

namespace Udp

open FixedWindow (Span Paced between uses)

def sentAt (outputs : List Output) : List Nat :=
  outputs.filterMap fun output =>
    match output with
    | .toTarget _ _ true endedAt => some endedAt
    | _ => none

@[simp] theorem sent_at_append (first second : List Output) : sentAt (first ++ second) = sentAt first ++ sentAt second :=
  List.filterMap_append

def enter (windowStart : Nat) : List Span → List Span
  | [] => [⟨windowStart, []⟩]
  | span :: rest => if windowStart = span.opened then span :: rest else ⟨windowStart, []⟩ :: span :: rest

def charge (instants : List Nat) : List Span → List Span
  | [] => []
  | span :: rest => ⟨span.opened, instants ++ span.uses⟩ :: rest

-- The association with a history variable: its rate windows, newest first, and the
-- successful sends made in each.
def windowed (a : Association) : Machine (State × List Span) (Nat × Wake) Output where
  step s event :=
    ((machine a).step s.1 event).map fun (after, made) =>
      ((after, charge (sentAt made) (enter after.windowStart s.2)), made)

theorem windowed_run (a : Association) (s : State) (spans : List Span) (events : List (Nat × Wake)) (outputs : List Output)
    (after : State) (run : (machine a).Run s events outputs after) :
    ∃ later, (windowed a).Run (s, spans) events outputs (after, later) := by
  induction run with
  | idle => exact ⟨spans, .idle⟩
  | @next _ _ state _ event made after stepped ih =>
      obtain ⟨later, before⟩ := ih
      have answered : (windowed a).step (state, later) event =
          some ((after, charge (sentAt made) (enter after.windowStart later)), made) := by
        simp [windowed, stepped]
      exact ⟨_, before.next event made _ answered⟩

def Enters (s : State) (now windowStart : Nat) (windowCount : UInt32) : Prop :=
  (windowStart = s.windowStart ∧ windowCount = s.windowCount) ∨
    (s.windowStart + secondNs ≤ now ∧ windowStart = now ∧ windowCount = 0)

-- A successful send is charged to the window it was checked in, and nothing else is.
def Budgeted (limit : UInt32) (s : State) (now : Nat) (after : State) (made : List Output) : Prop :=
  now ≤ after.now ∧ ∃ windowCount, Enters s now after.windowStart windowCount ∧
    ((sentAt made = [] ∧ after.windowCount = windowCount) ∨
      (sentAt made = [after.now] ∧ windowCount < limit ∧ after.windowCount = windowCount + 1))

theorem unspent (limit : UInt32) (s after : State) (now : Nat) (made : List Output) (later : now ≤ after.now)
    (quiet : sentAt made = []) (start : after.windowStart = s.windowStart) (count : after.windowCount = s.windowCount) :
    Budgeted limit s now after made :=
  ⟨later, s.windowCount, .inl ⟨start, rfl⟩, .inl ⟨quiet, count⟩⟩

theorem check_rate_enters (a : Association) (s : State) (limit : UInt32) (capped : a.cfg.limits.udpRatePps = some limit) :
    (checkRate a s).1.now = s.now ∧ Enters s s.now (checkRate a s).1.windowStart (checkRate a s).1.windowCount ∧
      ((checkRate a s).2 = true → (checkRate a s).1.windowCount < limit) := by
  rw [checkRate, capped]
  dsimp only
  by_cases elapsed : secondNs ≤ s.now - s.windowStart
  · rw [if_pos elapsed]
    have long : s.windowStart + secondNs ≤ s.now := by
      rw [secondNs] at elapsed ⊢
      omega
    exact ⟨rfl, .inr ⟨long, rfl, rfl⟩, by simp⟩
  · rw [if_neg elapsed]
    exact ⟨rfl, .inl ⟨rfl, rfl⟩, by simp⟩

-- What neither the lookup nor the report of its failure touches.
structure SameWindow (s after : State) : Prop where
  start : after.windowStart = s.windowStart
  count : after.windowCount = s.windowCount
  later : s.now ≤ after.now

theorem after_lookup_window (s : State) (d : Arrival) (address : Address) : SameWindow s (afterLookup s d address) := by
  cases address with
  | v4 | v6 => exact ⟨rfl, rfl, le_refl _⟩
  | domain => exact ⟨rfl, rfl, Nat.le_add_right _ _⟩

theorem report_dns_window (s : State) (msg : String) :
    SameWindow s (reportDns s msg).1 ∧ sentAt (reportDns s msg).2 = [] := by
  rw [reportDns]
  split <;> exact ⟨⟨rfl, rfl, le_refl _⟩, rfl⟩

@[simp] theorem track_target_window (a : Association) (s : State) (target : SocketAddr) :
    (trackTarget a s target).windowStart = s.windowStart ∧ (trackTarget a s target).windowCount = s.windowCount ∧
      (trackTarget a s target).now = s.now := by
  rw [trackTarget]
  split
  · exact ⟨rfl, rfl, rfl⟩
  · dsimp only
    split
    · cases s.knownOrder ++ [target] <;> exact ⟨rfl, rfl, rfl⟩
    · exact ⟨rfl, rfl, rfl⟩

theorem send_to_target_budgeted (a : Association) (s mid : State) (d : Arrival) (data : Bytes) (target : SocketAddr) (limit : UInt32)
    (capped : a.cfg.limits.udpRatePps = some limit) (entered : Enters s s.now mid.windowStart mid.windowCount)
    (room : mid.windowCount < limit) (later : s.now ≤ mid.now) :
    Budgeted limit s s.now (sendToTarget a mid d data target).1 (sendToTarget a mid d data target).2 := by
  cases sent : d.sent with
  | false =>
      have unsent : sendToTarget a mid d data target =
          ({ mid with now := mid.now + d.sendTook }, [.toTarget data target false (mid.now + d.sendTook)]) := by
        simp [sendToTarget, sent]
      rw [unsent]
      exact ⟨Nat.le_add_right_of_le later, mid.windowCount, entered, .inl ⟨rfl, rfl⟩⟩
  | true =>
      have charged : chargeRate a { mid with now := mid.now + d.sendTook } =
          { mid with now := mid.now + d.sendTook, windowCount := mid.windowCount + 1 } := by
        simp [chargeRate, capped]
      rw [sendToTarget, sent, charged]
      simp only [if_true]
      obtain ⟨start, count, now⟩ := track_target_window a
        { mid with now := mid.now + d.sendTook, windowCount := mid.windowCount + 1 } target
      refine ⟨?_, mid.windowCount, ?_, .inr ⟨?_, room, count⟩⟩
      · rw [now]
        exact Nat.le_add_right_of_le later
      · rw [start]
        exact entered
      · rw [now]
        rfl

theorem relay_to_target_budgeted (a : Association) (s : State) (d : Arrival) (limit : UInt32)
    (capped : a.cfg.limits.udpRatePps = some limit) :
    Budgeted limit s s.now (relayToTarget a s d).1 (relayToTarget a s d).2 := by
  rw [relayToTarget]
  cases decapRef d.data with
  | error error => exact unspent limit s s s.now [] (le_refl _) rfl rfl rfl
  | ok datagram =>
      dsimp only
      by_cases whole : datagram.frag = 0
      · rw [if_neg (not_not.mpr whole)]
        obtain ⟨same, entered, room⟩ := check_rate_enters a s limit capped
        -- From here on no window opens, so the entered one is the one charged.
        have idle : ∀ mid made, SameWindow (checkRate a s).1 mid → sentAt made = [] → Budgeted limit s s.now mid made := by
          intro mid made kept quiet
          refine ⟨same ▸ kept.later, (checkRate a s).1.windowCount, ?_, .inl ⟨quiet, kept.count⟩⟩
          rw [kept.start]
          exact entered
        cases allowed : (checkRate a s).2 with
        | false => exact idle _ [] ⟨rfl, rfl, le_refl _⟩ rfl
        | true =>
            have kept := after_lookup_window (checkRate a s).1 d datagram.address
            rw [if_neg (by simp)]
            cases resolveTarget a d datagram.address with
            | unusable => exact idle _ [] kept rfl
            | failed msg =>
                have reported := report_dns_window (afterLookup (checkRate a s).1 d datagram.address) msg
                exact idle _ _ ⟨reported.1.start.trans kept.start, reported.1.count.trans kept.count,
                  le_trans kept.later reported.1.later⟩ reported.2
            | found target =>
                dsimp only
                by_cases blocked : a.cfg.egress.isBlocked target.ip = true
                · rw [if_pos blocked]
                  exact idle _ [] kept rfl
                · rw [if_neg blocked]
                  refine send_to_target_budgeted a s _ d datagram.data target limit capped ?_ ?_ (same ▸ kept.later)
                  · rw [kept.start, kept.count]
                    exact entered
                  · rw [kept.count]
                    exact room allowed
      · rw [if_pos whole]
        exact unspent limit s s s.now [] (le_refl _) rfl rfl rfl

theorem on_datagram_budgeted (a : Association) (s : State) (d : Arrival) (limit : UInt32)
    (capped : a.cfg.limits.udpRatePps = some limit) :
    Budgeted limit s s.now (onDatagram a s d).1 (onDatagram a s d).2 := by
  rw [onDatagram]
  cases isClient a s d.src with
  | true => exact relay_to_target_budgeted a (lock s d.src) d limit capped
  | false =>
      by_cases known : d.src ∈ s.knownTargets
      · rw [if_neg (by simp), if_pos known]
        cases s.clientUdpAddr with
        | none => exact unspent limit s s s.now [] (le_refl _) rfl rfl rfl
        | some dst => exact unspent limit s _ s.now _ (Nat.le_add_right _ _) rfl rfl rfl
      · rw [if_neg (by simp), if_neg known]
        exact unspent limit s s s.now [] (le_refl _) rfl rfl rfl

theorem step_budgeted (a : Association) (s after : State) (event : Nat × Wake) (made : List Output) (limit : UInt32)
    (capped : a.cfg.limits.udpRatePps = some limit) (stepped : (machine a).step s event = some (after, made)) :
    s.now ≤ event.1 ∧ Budgeted limit s event.1 after made := by
  obtain ⟨now, wake⟩ := event
  simp only [machine, Option.ite_none_left_eq_some, Bool.or_eq_true, decide_eq_true_eq, not_or, not_lt] at stepped
  obtain ⟨⟨_, ordered⟩, handled⟩ := stepped
  refine ⟨ordered, ?_⟩
  have torn : Budgeted limit s now (teardown a { s with now := now }).1 (teardown a { s with now := now }).2 :=
    unspent limit s _ now _ (le_refl _) rfl rfl rfl
  have waited : Budgeted limit s now (wait { s with now := now }) [] :=
    unspent limit s _ now [] (le_refl _) rfl rfl rfl
  cases wake with
  | datagram d =>
      simp only [handle, Option.some.injEq, Prod.mk.injEq] at handled
      obtain ⟨rfl, rfl⟩ := handled
      exact on_datagram_budgeted a { s with now := now } d limit capped
  | recvFailed =>
      cases handled
      exact torn
  | idleElapsed =>
      simp only [handle, Option.ite_none_left_eq_some] at handled
      cases handled.2
      exact torn
  | control closed =>
      cases closed with
      | false =>
          cases handled
          exact waited
      | true =>
          cases handled
          exact torn
  | shutdown closing =>
      cases closing with
      | false =>
          cases handled
          exact waited
      | true =>
          cases handled
          exact torn

-- The state's window is the newest span, and its counter has never wrapped.
structure Ledger (limit : UInt32) (windowStart : Nat) (windowCount : UInt32) (now : Nat) (spans : List Span) : Prop where
  newest : ∃ span rest, spans = span :: rest ∧ span.opened = windowStart ∧ span.uses.length = windowCount.toNat ∧
    ∀ instant ∈ span.uses, instant ≤ now
  opened : windowStart ≤ now
  paced : Paced secondNs limit.toNat spans

theorem ledger_start (limit : UInt32) (started : Nat) : Ledger limit started 0 started [⟨started, []⟩] :=
  ⟨⟨⟨started, []⟩, [], rfl, rfl, rfl, by simp⟩, le_refl _, FixedWindow.paced_single started⟩

theorem ledger_enter (limit : UInt32) (s : State) (now windowStart : Nat) (windowCount : UInt32) (spans : List Span)
    (ledger : Ledger limit s.windowStart s.windowCount s.now spans) (ordered : s.now ≤ now)
    (entered : Enters s now windowStart windowCount) :
    Ledger limit windowStart windowCount now (enter windowStart spans) := by
  obtain ⟨⟨span, rest, rfl, opened, counted, past⟩, begun, paced⟩ := ledger
  have pastNow : ∀ instant ∈ span.uses, instant ≤ now := by
    intro instant used
    exact le_trans (past instant used) ordered
  rcases entered with ⟨rfl, rfl⟩ | ⟨elapsed, rfl, rfl⟩
  · rw [enter, if_pos opened.symm]
    exact ⟨⟨span, rest, rfl, opened, counted, pastNow⟩, le_trans begun ordered, paced⟩
  · have fresh : ¬ windowStart = span.opened := by
      rw [secondNs] at elapsed
      omega
    rw [enter, if_neg fresh]
    refine ⟨⟨_, _, rfl, rfl, rfl, by simp⟩, le_refl _, ?_⟩
    exact FixedWindow.paced_open span rest windowStart paced (opened ▸ elapsed) pastNow

theorem ledger_later (limit windowCount : UInt32) (windowStart now later : Nat) (spans : List Span)
    (ledger : Ledger limit windowStart windowCount now spans) (ordered : now ≤ later) :
    Ledger limit windowStart windowCount later spans := by
  obtain ⟨⟨span, rest, same, opened, counted, past⟩, begun, paced⟩ := ledger
  refine ⟨⟨span, rest, same, opened, counted, ?_⟩, le_trans begun ordered, paced⟩
  intro instant used
  exact le_trans (past instant used) ordered

theorem ledger_charge (limit windowCount : UInt32) (windowStart now : Nat) (spans : List Span)
    (ledger : Ledger limit windowStart windowCount now spans) (room : windowCount < limit) :
    Ledger limit windowStart (windowCount + 1) now (charge [now] spans) := by
  obtain ⟨⟨span, rest, rfl, opened, counted, past⟩, begun, paced⟩ := ledger
  have below : windowCount.toNat < limit.toNat := UInt32.lt_iff_toNat_lt.mp room
  have next : (windowCount + 1).toNat = windowCount.toNat + 1 := by
    have bound := limit.toNat_lt
    rw [UInt32.toNat_add, UInt32.toNat_one, Nat.mod_eq_of_lt]
    omega
  refine ⟨⟨⟨span.opened, now :: span.uses⟩, rest, rfl, opened, ?_, ?_⟩, begun, ?_⟩
  · rw [List.length_cons, counted, next]
  · intro instant used
    rcases List.mem_cons.mp used with rfl | before
    · exact le_refl _
    · exact past instant before
  · exact FixedWindow.paced_use span rest now paced (counted ▸ below) (opened ▸ begun)

theorem ledger_step (a : Association) (limit : UInt32) (capped : a.cfg.limits.udpRatePps = some limit) (s after : State)
    (spans : List Span) (event : Nat × Wake) (made : List Output)
    (ledger : Ledger limit s.windowStart s.windowCount s.now spans) (stepped : (machine a).step s event = some (after, made)) :
    Ledger limit after.windowStart after.windowCount after.now (charge (sentAt made) (enter after.windowStart spans)) := by
  obtain ⟨ordered, later, windowCount, entered, spent⟩ := step_budgeted a s after event made limit capped stepped
  have opened := ledger_later limit windowCount after.windowStart event.1 after.now _
    (ledger_enter limit s event.1 after.windowStart windowCount spans ledger ordered entered) later
  rcases spent with ⟨quiet, same⟩ | ⟨sent, room, charged⟩
  · have kept : charge [] (enter after.windowStart spans) = enter after.windowStart spans := by
      cases enter after.windowStart spans <;> rfl
    rw [quiet, same, kept]
    exact opened
  · rw [sent, charged]
    exact ledger_charge limit windowCount after.windowStart after.now _ opened room

theorem uses_enter (windowStart : Nat) (spans : List Span) : uses (enter windowStart spans) = uses spans := by
  cases spans with
  | nil => rfl
  | cons span rest =>
      rw [enter]
      split <;> rfl

theorem uses_charge (instants : List Nat) (spans : List Span) (nonempty : spans ≠ []) :
    uses (charge instants spans) = instants ++ uses spans := by
  cases spans with
  | nil => exact absurd rfl nonempty
  | cons span rest => simp [charge]

theorem enter_nonempty (windowStart : Nat) (spans : List Span) : enter windowStart spans ≠ [] := by
  cases spans with
  | nil => simp [enter]
  | cons span rest =>
      rw [enter]
      split <;> simp

theorem windowed_ledger (a : Association) (limit : UInt32) (capped : a.cfg.limits.udpRatePps = some limit) (started : Nat)
    (events : List (Nat × Wake)) (outputs : List Output) (s : State × List Span)
    (run : (windowed a).Run (start started, [⟨started, []⟩]) events outputs s) :
    Ledger limit s.1.windowStart s.1.windowCount s.1.now s.2 ∧ (uses s.2).Perm (sentAt outputs) := by
  refine Machine.run_invariant (windowed a) (start started, [⟨started, []⟩])
    (fun _ outputs s => Ledger limit s.1.windowStart s.1.windowCount s.1.now s.2 ∧ (uses s.2).Perm (sentAt outputs))
    ⟨ledger_start limit started, .refl _⟩ ?_ events outputs s run
  intro _ outputs s event after made known stepped
  obtain ⟨ledger, counted⟩ := known
  simp only [windowed, Option.map_eq_some_iff, Prod.exists, Prod.mk.injEq] at stepped
  obtain ⟨next, out, moved, rfl, rfl⟩ := stepped
  refine ⟨ledger_step a limit capped s.1 next s.2 event out ledger moved, ?_⟩
  rw [uses_charge _ _ (enter_nonempty _ _), uses_enter, sent_at_append]
  exact List.perm_append_comm.trans (counted.append_right _)

def Wasted (a : Association) (d : Arrival) : Prop :=
  match decapRef d.data with
  | .error _ => True
  | .ok datagram =>
      datagram.frag ≠ 0 ∨
        match resolveTarget a d datagram.address with
        | .unusable | .failed _ => True
        | .found target => a.cfg.egress.isBlocked target.ip = true ∨ d.sent = false

theorem quiet_sent_at (outputs : List Output) (quiet : sentTargets outputs = []) : sentAt outputs = [] := by
  rw [sentTargets, List.filterMap_eq_nil_iff] at quiet
  rw [sentAt, List.filterMap_eq_nil_iff]
  intro output known
  have silent := quiet output known
  cases output with
  | toTarget payload target sent endedAt =>
      cases sent with
      | false => rfl
      | true => cases silent
  | _ => rfl

theorem wasted_unsent (a : Association) (s after : State) (event : Nat × Wake) (made : List Output) (d : Arrival)
    (stepped : (machine a).step s event = some (after, made)) (arrived : event.2 = .datagram d) (wasted : Wasted a d) :
    sentAt made = [] := by
  rcases step_cases a s after event made stepped with ⟨other, same, handled⟩ | ⟨nothing, _⟩
  · rw [arrived] at same
    cases same
    cases handled with
    | foreign => rfl
    | dropped _ _ quiet => exact quiet_sent_at made quiet.2.1
    | forwarded => rfl
    | relayed _ datagram target endedAt decoded whole resolved allowed =>
        have unsent : d.sent = false := by simpa [Wasted, decoded, whole, resolved, allowed] using wasted
        rw [unsent]
        rfl
  · exact absurd arrived (nothing d)

theorem rate_capped (a : Association) (limit : UInt32) (capped : a.cfg.limits.udpRatePps = some limit) (started : Nat)
    (events : List (Nat × Wake)) (outputs : List Output) (s : State)
    (run : (machine a).Run (start started) events outputs s) :
    (∃ spans, (windowed a).Run (start started, [⟨started, []⟩]) events outputs (s, spans) ∧
      (uses spans).Perm (sentAt outputs) ∧
      spans.IsChain (fun newer older => older.opened + secondNs ≤ newer.opened ∧ ∀ instant ∈ older.uses, instant ≤ newer.opened) ∧
      (∀ span ∈ spans, span.uses.length ≤ limit.toNat) ∧
      ∃ span, spans.head? = some span ∧ span.opened = s.windowStart ∧ span.uses.length = s.windowCount.toNat) ∧
    (∀ origin k, 0 < k → between origin (origin + k * secondNs) (sentAt outputs) ≤ (k + 1) * limit.toNat) ∧
    (∀ event after made d, (machine a).step s event = some (after, made) → event.2 = .datagram d → Wasted a d →
      sentAt made = [] ∧ Enters s event.1 after.windowStart after.windowCount) := by
  obtain ⟨spans, ghost⟩ := windowed_run a (start started) [⟨started, []⟩] events outputs s run
  obtain ⟨⟨newest, _, paced⟩, counted⟩ := windowed_ledger a limit capped started events outputs (s, spans) ghost
  refine ⟨⟨spans, ghost, counted, paced.chain, paced.limited, ?_⟩, ?_, ?_⟩
  · obtain ⟨span, rest, rfl, opened, sized, _⟩ := newest
    exact ⟨span, rfl, opened, sized⟩
  · intro origin k _
    rw [between, ← counted.countP_eq]
    exact FixedWindow.uses_between spans paced origin _ k (le_refl _)
  · intro event after made d stepped arrived wasted
    have quiet := wasted_unsent a s after event made d stepped arrived wasted
    refine ⟨quiet, ?_⟩
    obtain ⟨_, _, windowCount, entered, spent⟩ := step_budgeted a s after event made limit capped stepped
    rcases spent with ⟨_, same⟩ | ⟨sent, _⟩
    · exact same ▸ entered
    · rw [quiet] at sent
      cases sent

def capped53 : Association :=
  { query53 with cfg := { Config.default with limits := { Config.default.limits with udpRatePps := some 1 } } }

-- The second query of the second is over the limit.
theorem rate_capped_repeated : between 0 (0 + 1 * secondNs)
    (sentAt [.toTarget [1, 2] (.v4 (.new 93 184 216 34) 53) true 15, .addUp 2]) ≤ (1 + 1) * 1 := by
  have run := (machine capped53).exec_run (start 0) [(10, .datagram queryArrival), (20, .datagram queryArrival)]
    [.toTarget [1, 2] (.v4 (.new 93 184 216 34) 53) true 15, .addUp 2] _ rfl
  exact (rate_capped capped53 1 rfl 0 _ _ _ run).2.1 0 1 (by decide)

end Udp

end NextSocks5
