import NextSocks5.Server.AcceptLoop
import NextSocks5.Server.Bulletin

set_option autoImplicit false

namespace NextSocks5

namespace Service

open AcceptLoop (ConnTask controller)
open Bulletin (announcement)

variable {τ : Type} [DecidableEq τ]

-- The accept loop and the tasks it spawned, each with a name of its own, over the metrics and the bus that they share.
structure State (τ : Type) where
  loop : AcceptLoop.State
  tasks : List (τ × ConnTask)
  done : List τ
  bulletin : Bulletin.State τ

inductive Wake (τ : Type) where
  | accepted (peer : SocketAddr) (t : τ)
  | acceptFailed (error : String)
  | shutdown (closing : Bool)
  | joinNext
  | step (t : τ)
  | tell (t : τ)
  | note (t : τ) (ev : Event)
  | ends (t : τ) (task : ConnTask)

def State.names (s : State τ) : List τ := s.tasks.map Prod.fst

-- A task that closes before it has a request calls nothing, as an execution without operations does.
def Finished (programs : τ → Registry.Execution) (s : Bulletin.State τ) (t : τ) : Prop :=
  (programs t).ended = true ∧ (s.registry.tasks t).Over ∧ announcement (s.stage t) (s.told t) = none

instance (programs : τ → Registry.Execution) (s : Bulletin.State τ) (t : τ) : Decidable (Finished programs s t) := by
  unfold Finished
  infer_instance

def spawned (cfg : Config) (s : State τ) (peer : SocketAddr) (t : τ) : List (τ × ConnTask) :=
  ((controller cfg).tryAdmit s.loop.admission peer.ip).2.toList.map fun permit => (t, ⟨peer, permit⟩)

def ofLoop (s : State τ) (tasks : List (τ × ConnTask)) (done : List τ) (moved : Option (AcceptLoop.State × List Event)) :
    Option (State τ × List Event) :=
  moved.map fun (loop, events) => ({ s with loop, tasks, done }, events)

def ofTask (s : State τ) (t : τ) (wake : Bulletin.Wake τ) : Option (State τ × List Event) :=
  if t ∈ s.names then (Bulletin.machine.step s.bulletin wake).map fun (bulletin, events) => ({ s with bulletin }, events) else none

def machine (cfg : Config) (programs : τ → Registry.Execution) : Machine (State τ) (Wake τ) Event where
  step s
    | .accepted peer t =>
        if t ∈ s.names ∨ t ∈ s.done then none
        else ofLoop s (spawned cfg s peer t ++ s.tasks) s.done ((AcceptLoop.machine cfg).step s.loop (.accepted peer))
    | .acceptFailed error => ofLoop s s.tasks s.done ((AcceptLoop.machine cfg).step s.loop (.acceptFailed error))
    | .shutdown closing => ofLoop s s.tasks s.done ((AcceptLoop.machine cfg).step s.loop (.shutdown closing))
    | .joinNext => ofLoop s s.tasks s.done ((AcceptLoop.machine cfg).step s.loop .joinNext)
    | .step t => ofTask s t (.step t)
    | .tell t => ofTask s t (.tell t)
    | .note t ev => ofTask s t (.note ev)
    | .ends t task =>
        if (t, task) ∈ s.tasks ∧ Finished programs s.bulletin t then
          ofLoop s (s.tasks.erase (t, task)) (t :: s.done) ((AcceptLoop.machine cfg).step s.loop (.taskEnds task))
        else none

def start (programs : τ → Registry.Execution) : State τ := ⟨AcceptLoop.start, [], [], Bulletin.start programs⟩

omit [DecidableEq τ] in
theorem of_loop_some (s after : State τ) (tasks : List (τ × ConnTask)) (done : List τ) (moved : Option (AcceptLoop.State × List Event))
    (made : List Event) (stepped : ofLoop s tasks done moved = some (after, made)) :
    ∃ loop, moved = some (loop, made) ∧ after = { s with loop, tasks, done } := by
  obtain ⟨⟨loop, events⟩, loopMoved, rest⟩ := Option.map_eq_some_iff.mp stepped
  cases rest
  exact ⟨loop, loopMoved, rfl⟩

theorem of_task_some (s after : State τ) (t : τ) (wake : Bulletin.Wake τ) (made : List Event)
    (stepped : ofTask s t wake = some (after, made)) :
    t ∈ s.names ∧ ∃ bulletin, Bulletin.machine.step s.bulletin wake = some (bulletin, made) ∧ after = { s with bulletin } := by
  obtain ⟨member, moved⟩ := Option.ite_none_right_eq_some.mp stepped
  obtain ⟨⟨bulletin, events⟩, loopMoved, rest⟩ := Option.map_eq_some_iff.mp moved
  cases rest
  exact ⟨member, bulletin, loopMoved, rfl⟩

inductive Moves (cfg : Config) (programs : τ → Registry.Execution) (s : State τ) : State τ → List Event → Prop where
  | loop (wake : AcceptLoop.Wake) (loop : AcceptLoop.State) (made : List Event) (same : loop.running = s.loop.running)
      (moved : (AcceptLoop.machine cfg).step s.loop wake = some (loop, made)) : Moves cfg programs s { s with loop } made
  | spawn (t : τ) (peer : SocketAddr) (loop : AcceptLoop.State) (made : List Event) (fresh : t ∉ s.names) (unused : t ∉ s.done)
      (moved : (AcceptLoop.machine cfg).step s.loop (.accepted peer) = some (loop, made)) :
      Moves cfg programs s { s with loop, tasks := spawned cfg s peer t ++ s.tasks } made
  | ends (t : τ) (task : ConnTask) (loop : AcceptLoop.State) (made : List Event) (member : (t, task) ∈ s.tasks)
      (finished : Finished programs s.bulletin t) (moved : (AcceptLoop.machine cfg).step s.loop (.taskEnds task) = some (loop, made)) :
      Moves cfg programs s { s with loop, tasks := s.tasks.erase (t, task), done := t :: s.done } made
  | task (t : τ) (wake : Bulletin.Wake τ) (bulletin : Bulletin.State τ) (made : List Event) (member : t ∈ s.names)
      (others : ∀ u, u ≠ t → wake.Spares u) (moved : Bulletin.machine.step s.bulletin wake = some (bulletin, made)) :
      Moves cfg programs s { s with bulletin } made

theorem settle_running (s : AcceptLoop.State) : (AcceptLoop.settle s).running = s.running := by
  rw [AcceptLoop.settle]
  split <;> rfl

theorem loop_running (cfg : Config) (s after : AcceptLoop.State) (wake : AcceptLoop.Wake) (made : List Event)
    (stepped : (AcceptLoop.machine cfg).step s wake = some (after, made)) (busy : ∀ peer, wake ≠ .accepted peer)
    (alive : ∀ task, wake ≠ .taskEnds task) : after.running = s.running := by
  cases AcceptLoop.step_moves cfg s after wake made stepped with
  | accepted peer serving => exact absurd rfl (busy peer)
  | taskEnds task member => exact absurd rfl (alive task)
  | acceptFailed error serving | spurious serving => rfl
  | closing serving | joinNext ended => exact settle_running _

theorem step_moves (cfg : Config) (programs : τ → Registry.Execution) (s after : State τ) (wake : Wake τ) (made : List Event)
    (stepped : (machine cfg programs).step s wake = some (after, made)) : Moves cfg programs s after made := by
  cases wake with
  | accepted peer t =>
      obtain ⟨fresh, rest⟩ := Option.ite_none_left_eq_some.mp stepped
      obtain ⟨loop, moved, rfl⟩ := of_loop_some _ _ _ _ _ _ rest
      exact .spawn t peer loop made (fun member => fresh (.inl member)) (fun member => fresh (.inr member)) moved
  | acceptFailed error =>
      obtain ⟨loop, moved, rfl⟩ := of_loop_some _ _ _ _ _ _ stepped
      exact .loop _ loop made (loop_running cfg _ _ _ made moved (by simp) (by simp)) moved
  | shutdown closing =>
      obtain ⟨loop, moved, rfl⟩ := of_loop_some _ _ _ _ _ _ stepped
      exact .loop _ loop made (loop_running cfg _ _ _ made moved (by simp) (by simp)) moved
  | joinNext =>
      obtain ⟨loop, moved, rfl⟩ := of_loop_some _ _ _ _ _ _ stepped
      exact .loop _ loop made (loop_running cfg _ _ _ made moved (by simp) (by simp)) moved
  | step t =>
      obtain ⟨member, bulletin, moved, rfl⟩ := of_task_some _ _ _ _ _ stepped
      exact .task t (.step t) bulletin made member (fun u other => other) moved
  | tell t =>
      obtain ⟨member, bulletin, moved, rfl⟩ := of_task_some _ _ _ _ _ stepped
      exact .task t (.tell t) bulletin made member (fun u other => other) moved
  | note t ev =>
      obtain ⟨member, bulletin, moved, rfl⟩ := of_task_some _ _ _ _ _ stepped
      exact .task t (.note ev) bulletin made member (fun u other => trivial) moved
  | ends t task =>
      obtain ⟨⟨member, finished⟩, rest⟩ := Option.ite_none_right_eq_some.mp stepped
      obtain ⟨loop, moved, rfl⟩ := of_loop_some _ _ _ _ _ _ rest
      exact .ends t task loop made member finished moved

theorem loop_quiet (cfg : Config) (s after : AcceptLoop.State) (wake : AcceptLoop.Wake) (made : List Event)
    (stepped : (AcceptLoop.machine cfg).step s wake = some (after, made)) : ∀ ev ∈ made, ev.opens = none ∧ ev.closes = none := by
  cases AcceptLoop.step_moves cfg s after wake made stepped with
  | accepted peer serving =>
      rw [AcceptLoop.accept]
      split
      · simp
      · simp [Event.opens, Event.closes]
  | acceptFailed error serving => simp [Event.opens, Event.closes]
  | closing serving | spurious serving | taskEnds task member | joinNext ended => simp

theorem service_projects (cfg : Config) (programs : τ → Registry.Execution) (wakes : List (Wake τ)) (events : List Event) (s : State τ)
    (run : (machine cfg programs).Run (start programs) wakes events s) :
    (AcceptLoop.machine cfg).Reachable AcceptLoop.start s.loop ∧
      ∃ called, Bulletin.machine.Run (Bulletin.start programs) called events s.bulletin := by
  refine (machine cfg programs).run_invariant (start programs) (fun _ events s =>
    (AcceptLoop.machine cfg).Reachable AcceptLoop.start s.loop ∧
      ∃ called, Bulletin.machine.Run (Bulletin.start programs) called events s.bulletin)
    ⟨Machine.reachable_start _ _, [], .idle⟩ ?_ wakes events s run
  intro _ events s wake after made held stepped
  obtain ⟨reached, called, before⟩ := held
  have logged (loop : AcceptLoop.State) (wake : AcceptLoop.Wake) (moved : (AcceptLoop.machine cfg).step s.loop wake = some (loop, made)) :
      (AcceptLoop.machine cfg).Reachable AcceptLoop.start loop ∧
        ∃ called, Bulletin.machine.Run (Bulletin.start programs) called (events ++ made) s.bulletin := by
    have notes := Bulletin.notes_run s.bulletin made (loop_quiet cfg s.loop loop wake made moved)
    exact ⟨Machine.reachable_step _ _ _ _ wake made reached moved, _, Machine.run_append _ _ _ _ _ _ _ _ before notes⟩
  cases step_moves cfg programs s after wake made stepped with
  | loop wake loop _ same moved => exact logged loop wake moved
  | spawn t peer loop _ fresh unused moved => exact logged loop _ moved
  | ends t task loop _ member finished moved => exact logged loop _ moved
  | task t wake bulletin _ member others moved => exact ⟨reached, _, before.next wake made bulletin moved⟩

-- The named tasks are the running ones, a task not spawned has called nothing, and one that ended is through.
structure Named (programs : τ → Registry.Execution) (s : State τ) : Prop where
  running : (s.tasks.map Prod.snd).Perm s.loop.running
  distinct : s.names.Nodup
  waiting : ∀ t, t ∉ s.names → t ∉ s.done → (s.bulletin.stage t) = .fresh
  through : ∀ t ∈ s.done, t ∉ s.names ∧ Finished programs s.bulletin t

omit [DecidableEq τ] in
theorem named_spawn (cfg : Config) (programs : τ → Registry.Execution) (s : State τ) (named : Named programs s) (t : τ)
    (peer : SocketAddr) (loop : AcceptLoop.State) (made : List Event) (fresh : t ∉ s.names) (unused : t ∉ s.done)
    (moved : (AcceptLoop.machine cfg).step s.loop (.accepted peer) = some (loop, made)) :
    Named programs { s with loop, tasks := spawned cfg s peer t ++ s.tasks } := by
  cases AcceptLoop.step_moves cfg s.loop loop _ made moved with
  | accepted _ serving =>
      rcases Admission.try_admit_cases (controller cfg) s.loop.admission peer.ip with ⟨_, _, admitted⟩ | ⟨_, refused⟩
      · have next : spawned cfg s peer t = [(t, ⟨peer, ⟨peer.ip⟩⟩)] := by simp [spawned, admitted]
        refine ⟨?_, ?_, ?_, ?_⟩
        · simp only [next, AcceptLoop.accept, admitted]
          exact named.running.cons _
        · simp only [next, State.names, List.cons_append, List.nil_append, List.map_cons]
          exact List.nodup_cons.mpr ⟨fresh, named.distinct⟩
        · intro u outside still
          refine named.waiting u ?_ still
          intro member
          refine outside ?_
          simp only [next, State.names, List.cons_append, List.nil_append, List.map_cons]
          exact List.mem_cons_of_mem t member
        · intro u member
          obtain ⟨gone, finished⟩ := named.through u member
          refine ⟨?_, finished⟩
          simp only [next, State.names, List.cons_append, List.nil_append, List.map_cons, List.mem_cons, not_or]
          exact ⟨fun same => unused (same ▸ member), gone⟩
      · have nothing : spawned cfg s peer t = [] := by simp [spawned, refused]
        simp only [nothing, AcceptLoop.accept, refused, List.nil_append]
        exact ⟨named.running, named.distinct, named.waiting, named.through⟩

theorem named_ends (cfg : Config) (programs : τ → Registry.Execution) (s : State τ) (named : Named programs s) (t : τ) (task : ConnTask)
    (loop : AcceptLoop.State) (made : List Event) (member : (t, task) ∈ s.tasks) (finished : Finished programs s.bulletin t)
    (moved : (AcceptLoop.machine cfg).step s.loop (.taskEnds task) = some (loop, made)) :
    Named programs { s with loop, tasks := s.tasks.erase (t, task), done := t :: s.done } := by
  have cutEarlier := List.perm_cons_erase member
  have names : s.names.Perm (t :: (s.tasks.erase (t, task)).map Prod.fst) := cutEarlier.map Prod.fst
  obtain ⟨gone, distinct⟩ := List.nodup_cons.mp (names.nodup_iff.mp named.distinct)
  cases AcceptLoop.step_moves cfg s.loop loop _ made moved with
  | taskEnds _ running =>
      refine ⟨?_, distinct, ?_, ?_⟩
      · have left := (cutEarlier.map Prod.snd).symm.trans named.running
        exact List.Perm.cons_inv (left.trans (List.perm_cons_erase running))
      · intro u outside still
        obtain ⟨other, still⟩ := not_or.mp (mt List.mem_cons.mpr still)
        refine named.waiting u ?_ still
        intro inside
        rcases List.mem_cons.mp (names.mem_iff.mp inside) with same | rest
        · exact other same
        · exact outside rest
      · intro u ended
        rcases List.mem_cons.mp ended with rfl | earlier
        · exact ⟨gone, finished⟩
        · obtain ⟨left, finishedLeft⟩ := named.through u earlier
          exact ⟨fun inside => left (names.mem_iff.mpr (List.mem_cons_of_mem t inside)), finishedLeft⟩

theorem named_task (programs : τ → Registry.Execution) (s : State τ) (named : Named programs s) (t : τ) (wake : Bulletin.Wake τ)
    (bulletin : Bulletin.State τ) (made : List Event) (member : t ∈ s.names) (others : ∀ u, u ≠ t → wake.Spares u)
    (moved : Bulletin.machine.step s.bulletin wake = some (bulletin, made)) : Named programs { s with bulletin } := by
  have same (u : τ) (outside : u ∉ s.names) :=
    Bulletin.step_spares s.bulletin bulletin wake made moved u (others u fun own => outside (own ▸ member))
  refine ⟨named.running, named.distinct, ?_, ?_⟩
  · intro u outside still
    have before := named.waiting u outside still
    rw [Bulletin.State.stage] at before ⊢
    dsimp only
    rw [(same u outside).1]
    exact before
  · intro u finished
    obtain ⟨gone, ended, through, told⟩ := named.through u finished
    obtain ⟨task, spoken⟩ := same u gone
    refine ⟨gone, ended, by dsimp only; rw [task]; exact through, ?_⟩
    rw [Bulletin.State.stage] at told ⊢
    dsimp only
    rw [task, spoken]
    exact told

theorem named_run (cfg : Config) (programs : τ → Registry.Execution) (wakes : List (Wake τ)) (events : List Event) (s : State τ)
    (run : (machine cfg programs).Run (start programs) wakes events s) : Named programs s := by
  refine (machine cfg programs).run_invariant (start programs) (fun _ _ s => Named programs s)
    ⟨.refl [], List.nodup_nil, fun _ _ _ => rfl, fun _ member => (by cases member)⟩ ?_ wakes events s run
  intro _ _ s wake after made named stepped
  cases step_moves cfg programs s after wake made stepped with
  | loop wake loop _ same moved => exact ⟨by rw [same]; exact named.running, named.distinct, named.waiting, named.through⟩
  | spawn t peer loop _ fresh unused moved => exact named_spawn cfg programs s named t peer loop made fresh unused moved
  | ends t task loop _ member finished moved => exact named_ends cfg programs s named t task loop made member finished moved
  | task t wake bulletin _ member others moved => exact named_task programs s named t wake bulletin made member others moved

theorem named_holds (programs : τ → Registry.Execution) (s : State τ) (named : Named programs s)
    (fits : ∀ t, Registry.Fits (programs t).ended (s.bulletin.registry.tasks t)) (t : τ) (idle : t ∉ s.names) :
    (s.bulletin.stage t).held = false ∧ (s.bulletin.stage t).listed = none := by
  by_cases finished : t ∈ s.done
  · obtain ⟨_, ended, through, _⟩ := named.through t finished
    obtain ⟨held, listed, _⟩ := Registry.fits_over (s.bulletin.registry.tasks t) (ended ▸ fits t) through
    exact ⟨held, listed⟩
  · rw [named.waiting t idle finished]
    exact ⟨rfl, rfl⟩

theorem released (cfg : Config) (loop : AcceptLoop.State) (reached : (AcceptLoop.machine cfg).Reachable AcceptLoop.start loop)
    (nothing : loop.running = []) : loop.admission.total = 0 ∧ ∀ ip, loop.admission.perIp.lookup ip = none := by
  obtain ⟨h, owns, known⟩ := AcceptLoop.reachable_owns cfg loop reached
  have exactly := Admission.reachable_exact _ h known
  have live := owns.live
  rw [nothing] at live
  have empty : h.live = [] := List.nil_perm.mp live
  have counts := exactly.counts
  rw [empty] at counts
  rw [owns.state]
  exact ⟨counts.total, fun ip => by rw [counts.entry]; rfl⟩

theorem running_capped (cfg : Config) (loop : AcceptLoop.State) (reached : (AcceptLoop.machine cfg).Reachable AcceptLoop.start loop) :
    Admission.Within cfg.limits.maxConnections loop.running.length := by
  obtain ⟨h, owns, known⟩ := AcceptLoop.reachable_owns cfg loop reached
  have exactly := Admission.reachable_exact _ h known
  have same := owns.live.length_eq
  rw [List.length_map] at same
  intro max bound
  have kept := exactly.total max bound
  rw [exactly.counts.total, Admission.held, List.length_map, ← same] at kept
  exact kept

theorem reachable_winding (cfg : Config) (loop : AcceptLoop.State) (reached : (AcceptLoop.machine cfg).Reachable AcceptLoop.start loop) :
    AcceptLoop.Winding loop :=
  (AcceptLoop.machine cfg).reachable_invariant AcceptLoop.start AcceptLoop.Winding ⟨by simp [AcceptLoop.start], by simp [AcceptLoop.start]⟩
    (fun s wake after made winding stepped => AcceptLoop.step_winding cfg s after wake made winding stepped) loop reached

theorem named_told (programs : τ → Registry.Execution) (s : State τ) (named : Named programs s) (events : List Event)
    (ledger : Bulletin.Ledger events s.bulletin) (t : τ) (idle : t ∉ s.names) (unheld : (s.bulletin.stage t).held = false)
    (spoke : s.bulletin.told t ≠ .nothing) : s.bulletin.told t = .closed := by
  have agrees := ledger.agrees t
  cases told : s.bulletin.told t with
  | nothing => exact absurd told spoke
  | closed => rfl
  | opened =>
      rw [told] at agrees
      by_cases ended : t ∈ s.done
      · obtain ⟨_, _, through, spoken⟩ := named.through t ended
        have between : (s.bulletin.stage t).between = true := through.2
        rw [told] at spoken
        cases stage : s.bulletin.stage t with
        | running r | adding r _ _ => rw [stage] at unheld; cases unheld
        | leaving r => rw [stage] at between; cases between
        | finished r => rw [stage] at spoken; cases spoken
        | _ => rw [stage] at agrees; cases agrees
      · rw [named.waiting t idle ended] at agrees
        cases agrees

structure Clean (events : List Event) (s : State τ) : Prop where
  tasks : s.tasks = []
  permits : s.loop.admission.total = 0 ∧ ∀ ip, s.loop.admission.perIp.lookup ip = none
  active : s.bulletin.registry.metrics.activeConns = 0
  registry : s.bulletin.registry.metrics.registry = ∅
  told : ∀ id, id ∈ openedIds events ↔ id ∈ closedIds events

variable [Fintype τ]

-- The cap on connections bounds what the metrics show, and when the loop returns everything was given back and told.
theorem service_accounts (cfg : Config) (programs : τ → Registry.Execution) (wakes : List (Wake τ)) (events : List Event) (s : State τ)
    (run : (machine cfg programs).Run (start programs) wakes events s) :
    Paired events ∧ Admission.Within cfg.limits.maxConnections s.bulletin.registry.metrics.activeConns.toNat ∧
      Admission.Within cfg.limits.maxConnections s.bulletin.registry.metrics.registry.keys.length ∧
      (s.loop.phase = .returned → Clean events s) := by
  obtain ⟨reached, called, told⟩ := service_projects cfg programs wakes events s run
  have named := named_run cfg programs wakes events s run
  have ledger := Bulletin.ledger_run programs called events s.bulletin told
  obtain ⟨schedule, outputs, stepped⟩ := Bulletin.registry_run programs called events s.bulletin told
  have inv := Registry.inv_run programs schedule outputs s.bulletin.registry stepped
  have holds := named_holds programs s named inv.fits
  have sized : s.names.length = s.loop.running.length := by
    rw [State.names, List.length_map, ← List.length_map Prod.snd, named.running.length_eq]
  have active : Registry.active s.bulletin.registry ≤ s.loop.running.length := by
    rw [← sized]
    refine Census.census_le_length _ _ s.names ?_
    intro t inside
    by_contra idle
    have out := (holds t idle).1
    rw [Bulletin.State.stage, inside] at out
    cases out
  have listed : s.bulletin.registry.metrics.registry.keys.length ≤ s.loop.running.length := by
    rw [inv.counts.size, ← sized]
    refine Census.census_le_length _ _ s.names ?_
    intro t inside
    by_contra idle
    have out := (holds t idle).2
    rw [Bulletin.State.stage] at out
    rw [out] at inside
    cases inside
  have capped := running_capped cfg s.loop reached
  refine ⟨ledger.paired, ?_, fun max bound => listed.trans (capped max bound), ?_⟩
  · intro max bound
    rw [inv.counts.active, UInt64.toNat_ofNat']
    exact (Nat.mod_le _ _).trans (active.trans (capped max bound))
  · intro returned
    have nothing := ((reachable_winding cfg s.loop reached).returned returned).1
    rw [nothing] at active listed
    have empty : s.tasks = [] := by
      rw [State.names, List.length_map, nothing] at sized
      exact List.length_eq_zero_iff.mp sized
    have idle (t : τ) : t ∉ s.names := by simp [State.names, empty]
    refine ⟨empty, released cfg s.loop reached nothing, ?_, ?_, ?_⟩
    · rw [inv.counts.active, Nat.le_zero.mp active]
      rfl
    · exact AList.ext (List.map_eq_nil_iff.mp (List.length_eq_zero_iff.mp (Nat.le_zero.mp listed)))
    · intro id
      rw [ledger.opened, ledger.closed]
      constructor
      · intro known
        obtain ⟨t, r, spoke, rest⟩ := known
        exact ⟨t, r, named_told programs s named events ledger t (idle t) (holds t (idle t)).1 spoke, rest⟩
      · intro known
        obtain ⟨t, r, spoken, rest⟩ := known
        exact ⟨t, r, by rw [spoken]; decide, rest⟩

def queried : Registry.Execution :=
  .associated .default Udp.query53.clientPeer Udp.queryHost .new (Metrics.new.register Udp.query53.clientPeer "udp-associate" .udp).2
    Udp.query53 _ rfl 0 [(10, .datagram Udp.queryArrival), (20, .datagram (Udp.queryReply53 true)), (30, .control true)]
    (Udp.queryTraffic true ++ [.recordSuccess, .unregister, .emit (.closed Udp.query53.id)]) _ (Machine.exec_run _ _ _ _ _ rfl)

theorem service_accounts_query : ∃ (events : List Event) (s : State Unit), Paired events ∧ Clean events s := by
  let wakes : List (Wake Unit) := [.accepted firstPeer (), .step (), .step (), .step (), .step (), .tell (), .step (), .step (), .step (),
    .shutdown true, .step (), .step (), .step (), .step (), .tell (), .ends () ⟨firstPeer, ⟨firstPeer.ip⟩⟩, .joinNext]
  have ran : ((machine oneConnection fun _ => queried).exec (start fun _ : Unit => queried) wakes).map
      (fun (_, s) => s.loop.phase) = some .returned := by decide +kernel
  obtain ⟨⟨events, s⟩, done, returned⟩ := Option.map_eq_some_iff.mp ran
  obtain ⟨paired, _, _, clean⟩ := service_accounts oneConnection (fun _ => queried) wakes events s (Machine.exec_run _ _ _ _ _ done)
  exact ⟨events, s, paired, clean returned⟩

end Service

end NextSocks5
