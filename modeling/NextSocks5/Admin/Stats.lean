import NextSocks5.Admin.Postcard
import NextSocks5.Server.Registry

set_option autoImplicit false

namespace NextSocks5

namespace Registry

variable {τ : Type} [Fintype τ] [DecidableEq τ]

def listing (programs : τ → Execution) (s : State τ) (t : τ) : Option ConnInfo :=
  (s.tasks t).stage.listed.map fun r =>
    r.info (volume .up ((s.tasks t).done (programs t).operations)) (volume .down ((s.tasks t).done (programs t).operations))

omit [Fintype τ] [DecidableEq τ] in
theorem listing_id (programs : τ → Execution) (s : State τ) (t : τ) (info : ConnInfo)
    (listed : listing programs s t = some info) : ∃ r, (s.tasks t).stage.registration = some r ∧ info.id = r.id := by
  obtain ⟨r, stage, rfl⟩ := Option.map_eq_some_iff.mp listed
  exact ⟨r, Stage.listed_registration _ r stage, rfl⟩

omit [DecidableEq τ] in
theorem connections_iff (programs : τ → Execution) (s : State τ) (consistent : Consistent programs s)
    (info : ConnInfo) : info ∈ s.metrics.connections ↔ ∃ t, listing programs s t = some info := by
  constructor
  · intro known
    obtain ⟨⟨id, other⟩, member, rfl⟩ := List.mem_map.mp known
    have found : s.metrics.entry id = some other := (List.mem_dlookup_iff s.metrics.registry.nodupKeys).mpr member
    obtain ⟨t, r, listed, _, same⟩ := (consistent_listed programs s consistent id other).mp found
    exact ⟨t, by simp [listing, listed, same]⟩
  · intro held
    obtain ⟨t, listed⟩ := held
    obtain ⟨r, stage, rfl⟩ := Option.map_eq_some_iff.mp listed
    have found := (consistent_listed programs s consistent r.id _).mpr ⟨t, r, stage, rfl, rfl⟩
    exact List.mem_map.mpr ⟨⟨r.id, _⟩, (List.mem_dlookup_iff s.metrics.registry.nodupKeys).mp found, rfl⟩

omit [DecidableEq τ] in
theorem connections_nodup (programs : τ → Execution) (s : State τ) (consistent : Consistent programs s) :
    s.metrics.connections.Nodup := by
  refine List.Nodup.of_map ConnInfo.id ?_
  have keyed : s.metrics.connections.map ConnInfo.id = s.metrics.registry.keys := by
    rw [Metrics.connections, List.map_map]
    apply List.map_congr_left
    intro entry member
    have found : s.metrics.entry entry.1 = some entry.2 := (List.mem_dlookup_iff s.metrics.registry.nodupKeys).mpr member
    obtain ⟨t, r, _, same, info⟩ := (consistent_listed programs s consistent entry.1 entry.2).mp found
    rw [Function.comp_apply, info, ← same]
    rfl
  rw [keyed]
  exact s.metrics.registry.nodupKeys

omit [DecidableEq τ] in
theorem connections_perm (programs : τ → Execution) (s : State τ) (consistent : Consistent programs s) :
    s.metrics.connections.Perm (Finset.univ.toList.filterMap (listing programs s)) := by
  refine (List.perm_ext_iff_of_nodup (connections_nodup programs s consistent) ?_).mpr ?_
  · refine (Finset.nodup_toList Finset.univ).filterMap ?_
    intro first second info left right
    obtain ⟨r, own, same⟩ := listing_id programs s first info left
    obtain ⟨q, other, equal⟩ := listing_id programs s second info right
    by_contra apart
    exact consistent.distinct first second r q own other apart (same.symm.trans equal)
  · intro info
    rw [connections_iff programs s consistent, List.mem_filterMap]
    simp

omit [DecidableEq τ] in
theorem connections_sum (programs : τ → Execution) (s : State τ) (consistent : Consistent programs s)
    (size : ConnInfo → Nat) :
    (s.metrics.connections.map size).sum = ∑ t, ((listing programs s t).map size).getD 0 := by
  have filtered : ∀ tasks : List τ,
      ((tasks.filterMap (listing programs s)).map size).sum = (tasks.map fun t => ((listing programs s t).map size).getD 0).sum := by
    intro tasks
    induction tasks with
    | nil => rfl
    | cons t tasks ih => cases listed : listing programs s t <;> simp [listed, ih]
  rw [((connections_perm programs s consistent).map size).sum_eq, filtered, Finset.sum_map_toList]

omit [DecidableEq τ] in
theorem connections_length (programs : τ → Execution) (s : State τ) (consistent : Consistent programs s) :
    s.metrics.connections.length = listed s := by
  have counted := connections_sum programs s consistent fun _ => 1
  rw [List.map_const', List.sum_replicate, smul_eq_mul, Nat.mul_one] at counted
  rw [counted, listed, Census.census]
  apply Finset.sum_congr rfl
  intro t _
  cases stage : (s.tasks t).stage.listed <;> simp [listing, stage]

def Opening (src : SocketAddr) (target : String) (kind : ConnKind) : Task → Prop
  | ⟨.fresh, rest⟩ => rest = [.register src target kind]
  | ⟨.allocated r, rest⟩ | ⟨.totalled r, rest⟩ | ⟨.activated r, rest⟩ | ⟨.running r, rest⟩ => rest = [] ∧ r.target = target
  | _ => False

def Stage.remaining : Stage → Nat
  | fresh => 4
  | allocated _ => 3
  | totalled _ => 2
  | activated _ => 1
  | _ => 0

theorem opening_step (src : SocketAddr) (target : String) (kind : ConnKind) (m : Metrics) (task : Task)
    (opening : Opening src target kind task) (unfinished : task.stage.remaining ≠ 0) :
    ∃ metrics next, atomic m task = some (metrics, next, []) ∧ Opening src target kind next ∧
      next.stage.remaining < task.stage.remaining := by
  obtain ⟨stage, rest⟩ := task
  cases stage with
  | fresh =>
      cases opening
      exact ⟨_, _, rfl, ⟨rfl, rfl⟩, by simp [Stage.remaining]⟩
  | allocated r | totalled r | activated r =>
      obtain ⟨rfl, named⟩ := opening
      exact ⟨_, _, rfl, ⟨rfl, named⟩, by simp [Stage.remaining]⟩
  | _ => exact absurd rfl unfinished

theorem crowd_gathers (program : Execution) (src : SocketAddr) (target : String) (kind : ConnKind)
    (opens : program.operations = [.register src target kind]) :
    ∃ s : State τ, machine.Reachable (start fun _ => program) s ∧ ∀ t, ∃ r, (s.tasks t).stage.listed = some r ∧ r.target = target := by
  have gathered := Machine.reachable_goal machine (fun s : State τ => ∀ t, Opening src target kind (s.tasks t))
    (fun s => ∀ t, (s.tasks t).stage.remaining = 0) (fun s => ∑ t, (s.tasks t).stage.remaining) ?_ (start fun _ => program)
    (fun _ => opens)
  · obtain ⟨s, reached, opening, done⟩ := gathered
    refine ⟨s, reached, ?_⟩
    intro t
    have last := opening t
    have ended := done t
    generalize s.tasks t = task at last ended
    obtain ⟨stage, rest⟩ := task
    cases stage with
    | running r => exact ⟨r, rfl, last.2⟩
    | fresh | allocated | totalled | activated => cases ended
    | _ => exact last.elim
  · intro s opening unfinished
    obtain ⟨t, waiting⟩ := not_forall.mp unfinished
    obtain ⟨metrics, next, moved, kept, fewer⟩ := opening_step src target kind s.metrics (s.tasks t) (opening t) waiting
    have stepped := machine_answers s t metrics next [] moved
    have self : (⟨metrics, Function.update s.tasks t next⟩ : State τ).tasks t = next := Function.update_self t next s.tasks
    have others : ∀ u, u ≠ t → (⟨metrics, Function.update s.tasks t next⟩ : State τ).tasks u = s.tasks u :=
      fun u other => Function.update_of_ne other next s.tasks
    generalize (⟨metrics, Function.update s.tasks t next⟩ : State τ) = after at stepped self others
    refine ⟨t, after, _, stepped, ?_, ?_⟩
    · intro u
      by_cases own : u = t
      · rw [own, self]
        exact kept
      · rw [others u own]
        exact opening u
    · refine Finset.sum_lt_sum ?_ ⟨t, Finset.mem_univ t, by rwa [self]⟩
      intro u _
      by_cases own : u = t
      · rw [own, self]
        exact fewer.le
      · rw [others u own]

end Registry

namespace Admin

open Registry (Execution listing listed)

-- How the serializer lays a Stats frame out: the entries one after the other, none of them empty.
structure Layout (postcard : Postcard) where
  head : Snapshot → Nat → Bytes
  entry : ConnInfo → Bytes
  nonempty : ∀ info, entry info ≠ []
  stats : ∀ snapshot connections body, postcard.toAllocvec (.stats snapshot connections) = .ok body →
    body = head snapshot connections.length ++ connections.flatMap entry
  encodes : ∀ snapshot connections, (head snapshot connections.length ++ connections.flatMap entry).length < UInt64.size →
    ∃ body, postcard.toAllocvec (.stats snapshot connections) = .ok body

def Survives (postcard : Postcard) (frame : Frame) : Prop :=
  ∃ wire, (∀ w, writeFrame postcard w frame = (.ok (), w ++ wire)) ∧
    ∀ r more, r.bytes = wire ++ more →
      ∃ received rest, readFrame postcard r = .ok (received, rest) ∧ rest.bytes = more ∧ rest.ending = r.ending

theorem survives_fits (postcard : Postcard) (frame : Frame) (survives : Survives postcard frame) :
    ∃ body, postcard.toAllocvec frame = .ok body ∧ body.length ≤ maxFrameLen.toNat := by
  obtain ⟨wire, written, reads⟩ := survives
  obtain ⟨error, failed, _⟩ | ⟨body, encoded, small, wrote⟩ := write_frame_cases postcard [] frame
  · rw [written] at failed
    cases failed
  · rw [written, Prod.mk.injEq, List.nil_append, List.nil_append] at wrote
    obtain ⟨_, rfl⟩ := wrote
    have bytes : Reader.bytes ⟨[frameBytes body], ⟨.other, "early eof"⟩⟩ = frameBytes body := by simp [Reader.bytes]
    obtain ⟨received, rest, read, left, _⟩ := reads _ [] (bytes.trans (List.append_nil _).symm)
    have used := read_frame_length postcard body _ rest received bytes read
    rw [left, List.length_nil] at used
    exact ⟨body, encoded, by omega⟩

theorem survives_iff (postcard : Postcard) (decodes : postcard.Decodes) (frame : Frame) :
    Survives postcard frame ↔ ∃ body, postcard.toAllocvec frame = .ok body ∧ body.length ≤ maxFrameLen.toNat := by
  constructor
  · exact survives_fits postcard frame
  · intro fits
    obtain ⟨body, encoded, small⟩ := fits
    obtain ⟨kept, decoded⟩ := decodes frame body encoded
    refine ⟨frameBytes body, fun w => write_frame_taken postcard w frame body encoded (le_trans (Nat.mod_le _ _) small), ?_⟩
    intro r more arrived
    obtain ⟨rest, read, left, ending⟩ := read_frame_whole postcard kept body more r decoded small arrived
    exact ⟨kept, rest, read, left, ending⟩

theorem stats_survives_iff (postcard : Postcard) (decodes : postcard.Decodes) (layout : Layout postcard) (snapshot : Snapshot)
    (connections : List ConnInfo) :
    Survives postcard (.stats snapshot connections) ↔
      (layout.head snapshot connections.length).length + (connections.map fun info => (layout.entry info).length).sum ≤
        maxFrameLen.toNat := by
  have sized : (layout.head snapshot connections.length ++ connections.flatMap layout.entry).length =
      (layout.head snapshot connections.length).length + (connections.map fun info => (layout.entry info).length).sum := by
    rw [List.length_append, List.length_flatMap]
  rw [survives_iff postcard decodes, ← sized]
  constructor
  · intro fits
    obtain ⟨body, encoded, small⟩ := fits
    rwa [← layout.stats snapshot connections body encoded]
  · intro small
    have cap : maxFrameLen.toNat < UInt64.size := by decide
    obtain ⟨body, encoded⟩ := layout.encodes snapshot connections (Nat.lt_of_le_of_lt small cap)
    refine ⟨body, encoded, ?_⟩
    rwa [layout.stats snapshot connections body encoded]

theorem stats_survives_bounded (postcard : Postcard) (decodes : postcard.Decodes) (layout : Layout postcard) (snapshot : Snapshot)
    (connections : List ConnInfo) (cap size : Nat) (few : connections.length ≤ cap)
    (short : ∀ info ∈ connections, (layout.entry info).length ≤ size)
    (room : (layout.head snapshot connections.length).length + cap * size ≤ maxFrameLen.toNat) :
    Survives postcard (.stats snapshot connections) := by
  rw [stats_survives_iff postcard decodes layout]
  have total := List.sum_le_card_nsmul (connections.map fun info => (layout.entry info).length) size (by simpa using short)
  rw [List.length_map, smul_eq_mul] at total
  have within := Nat.mul_le_mul_right size few
  omega

theorem stats_rejected_crowded (postcard : Postcard) (decodes : postcard.Decodes) (layout : Layout postcard) (snapshot : Snapshot)
    (connections : List ConnInfo) (size : Nat) (long : ∀ info ∈ connections, size ≤ (layout.entry info).length)
    (many : maxFrameLen.toNat < connections.length * size) : ¬ Survives postcard (.stats snapshot connections) := by
  rw [stats_survives_iff postcard decodes layout]
  have total := List.card_nsmul_le_sum (connections.map fun info => (layout.entry info).length) size (by simpa using long)
  rw [List.length_map, smul_eq_mul] at total
  omega

-- Past a million connections no layout fits.
theorem stats_rejected_million (postcard : Postcard) (decodes : postcard.Decodes) (layout : Layout postcard) (snapshot : Snapshot)
    (connections : List ConnInfo) (many : 2 ^ 20 < connections.length) : ¬ Survives postcard (.stats snapshot connections) := by
  refine stats_rejected_crowded postcard decodes layout snapshot connections 1 ?_ (by rw [Nat.mul_one]; exact many)
  intro info _
  exact List.length_pos_iff.mpr (layout.nonempty info)

-- Where any number of connections that the limits admit come and go in any order: what is registered at the moment
-- decides. A limit keeps the stream alive where so many entries of the largest size fit, and a million never do.
theorem stats_stream_iff (postcard : Postcard) (decodes : postcard.Decodes) (layout : Layout postcard) (limits : Limits) (τ : Type)
    [Fintype τ] [DecidableEq τ] (programs : τ → Execution) (schedule : List τ) (outputs : List (τ × Relay.Direction × Nat))
    (s : Registry.State τ) (run : Registry.machine.Run (Registry.start programs) schedule outputs s)
    (admitted : ∀ cap, limits.maxConnections = some cap → listed s ≤ cap) (snapshot : Snapshot) :
    (Survives postcard (.stats snapshot s.metrics.connections) ↔
      (layout.head snapshot (listed s)).length + ∑ t, ((listing programs s t).map fun info => (layout.entry info).length).getD 0 ≤
        2 ^ 20) ∧
    (∀ cap size, limits.maxConnections = some cap → (∀ t info, listing programs s t = some info → (layout.entry info).length ≤ size) →
      (layout.head snapshot (listed s)).length + cap * size ≤ 2 ^ 20 → Survives postcard (.stats snapshot s.metrics.connections)) ∧
    (2 ^ 20 < listed s → ¬ Survives postcard (.stats snapshot s.metrics.connections)) := by
  have consistent := Registry.inv_consistent programs outputs s (Registry.inv_run programs schedule outputs s run)
  have length := Registry.connections_length programs s consistent
  refine ⟨?_, ?_, ?_⟩
  · rw [stats_survives_iff postcard decodes layout, length, Registry.connections_sum programs s consistent]
    exact Iff.rfl
  · intro cap size limit short room
    refine stats_survives_bounded postcard decodes layout snapshot _ cap size (length ▸ admitted cap limit) ?_ (length ▸ room)
    intro info known
    obtain ⟨t, listedThere⟩ := (Registry.connections_iff programs s consistent info).mp known
    exact short t info listedThere
  · intro many
    exact stats_rejected_million postcard decodes layout snapshot _ (length ▸ many)

theorem counter_fits (n : Nat) : Postcard.counter.fits n = true := decide_eq_true (UInt64.ofNat n).toNat_lt

theorem u16_fits (n : UInt16) : Postcard.u16.fits n = true := decide_eq_true n.toNat_lt

theorem socket_addr_fits (address : SocketAddr) : Postcard.socketAddr.fits address = true := by
  cases address with
  | v4 ip port => simp [Postcard.socketAddr, Codec.pair, Postcard.ipv4Addr, Codec.convert, Codec.vector, Codec.byte, u16_fits]
  | v6 ip port => simp [Postcard.socketAddr, Codec.pair, Postcard.ipv6Addr, Codec.convert, Codec.vector, Codec.byte, u16_fits]

theorem conn_info_fits (info : ConnInfo) (short : (asBytes info.target).length < UInt64.size) : Postcard.connInfo.fits info = true := by
  have text : Postcard.string.fits info.target = true := by
    simp [Postcard.string, Postcard.list, Codec.list, Codec.convert, Postcard.usize, Codec.varint, Codec.byte, short]
  simp [Postcard.connInfo, Codec.convert, Codec.pair, counter_fits, socket_addr_fits, text, Postcard.connKind]

theorem snapshot_fits (snapshot : Snapshot) : Postcard.snapshot.fits snapshot = true := by
  have word : Postcard.u64.fits snapshot.activeConns = true := decide_eq_true snapshot.activeConns.toNat_lt
  simp [Postcard.snapshot, Codec.convert, Codec.pair, Codec.vector, counter_fits, word]

theorem entry_covers_text (info : ConnInfo) : (asBytes info.target).length ≤ (Postcard.connInfo.encode info).length := by
  have text : (Postcard.string.encode info.target).length =
      (Postcard.usize.encode (asBytes info.target).length).length + (asBytes info.target).length :=
    Codec.list_byte_length Postcard.usize (fun _ => rfl) (asBytes info.target)
  simp only [Postcard.connInfo, Codec.convert, Codec.pair, List.length_append, text]
  omega

theorem entry_nonempty (info : ConnInfo) : Postcard.connInfo.encode info ≠ [] := by
  intro empty
  simp only [Postcard.connInfo, Codec.convert, Codec.pair, List.append_eq_nil_iff] at empty
  cases kind : info.kind <;> simp [Postcard.connKind, kind] at empty

theorem stats_fits (snapshot : Snapshot) (connections : List ConnInfo)
    (short : (connections.flatMap Postcard.connInfo.encode).length < UInt64.size) :
    Postcard.frame.fits (.stats snapshot connections) = true := by
  have within (info : ConnInfo) (member : info ∈ connections) :
      (Postcard.connInfo.encode info).length ≤ (connections.flatMap Postcard.connInfo.encode).length := by
    rw [List.length_flatMap]
    exact List.le_sum_of_mem (List.mem_map_of_mem member)
  have each : connections.all Postcard.connInfo.fits = true := by
    refine List.all_eq_true.mpr fun info member => conn_info_fits info ?_
    have covered := entry_covers_text info
    have inside := within info member
    omega
  have counted : connections.length < UInt64.size := by
    have positive := List.card_nsmul_le_sum (connections.map fun info => (Postcard.connInfo.encode info).length) 1 (by
      intro size member
      obtain ⟨info, _, rfl⟩ := List.mem_map.mp member
      exact List.length_pos_iff.mpr (entry_nonempty info))
    rw [List.length_map, smul_eq_mul, Nat.mul_one, ← List.length_flatMap] at positive
    omega
  simp [Postcard.frame, Codec.pair, Postcard.list, Codec.list, Postcard.usize, Codec.varint, snapshot_fits, each, counted]

def Postcard.layout : Layout Postcard.format where
  head snapshot n := 1 :: (Postcard.snapshot.encode snapshot ++ Postcard.usize.encode n)
  entry := Postcard.connInfo.encode
  nonempty := entry_nonempty
  stats := by
    intro snapshot connections body encoded
    obtain ⟨_, rfl⟩ := Postcard.format_body _ body encoded
    simp [Postcard.frame, Codec.pair, Postcard.list, Codec.list, List.append_assoc]
  encodes := by
    intro snapshot connections short
    rw [List.length_append] at short
    exact ⟨_, Postcard.format_encodes _ (stats_fits snapshot connections (by omega))⟩

def webCall (name : String) : Connect.Call :=
  ⟨.default, .domain name 80, [], .v4 (.new 192 0 2 7) 40000, ⟨fun _ => .ok [.v4 (.new 93 184 216 34)], fun _ => .ok []⟩,
    fun _ => 0, 0, [], []⟩

-- The name resolves, the dial succeeds, the reply goes out, and the relay has not moved a byte.
def webProgram (name : String) : Execution :=
  .connect (webCall name) .new
    [(0, .establish .call), (1, .establish (.lookupDone .a)), (2, .establish (.attemptDone (.ok ⟨none⟩))), (3, .accept 10)] _ _
    (((Connect.machine (webCall name)).noted (Connect.operations (webCall name))).exec_run _ _ _ _ rfl)

theorem web_program_opens (name : String) :
    (webProgram name).operations = [.register (.v4 (.new 192 0 2 7) 40000) (Connect.addressToString (.domain name 80)) .connect] := rfl

def webEntry : ConnInfo := ⟨1, .v4 (.new 192 0 2 7) 40000, "example.test:80", .connect, 0, 0⟩

theorem web_head_length : (Postcard.layout.head .default 1).length ≤ 100 := by
  have counter : Postcard.counter.encode 0 = [0] := Codec.encode_varint_small 0 (by decide)
  have word : Postcard.u64.encode 0 = [0] := Codec.encode_varint_small 0 (by decide)
  have one : Postcard.usize.encode 1 = [1] := Codec.encode_varint_small 1 (by decide)
  have counters : (Vector.replicate 9 0).toList = List.replicate 9 0 := rfl
  simp only [Postcard.layout, Postcard.snapshot, Snapshot.default, Codec.convert, Codec.pair, Codec.vector, counter, word, one, counters]
  simp [counter]

theorem web_entry_length : (Postcard.layout.entry webEntry).length ≤ 100 := by
  have zero : Postcard.counter.encode 0 = [0] := Codec.encode_varint_small 0 (by decide)
  have one : Postcard.counter.encode 1 = [1] := Codec.encode_varint_small 1 (by decide)
  have port : (Codec.encodeVarint (UInt16.toNat 40000)).length ≤ 3 := (Codec.varint_length 2 40000 (by decide)).2
  have src : (Postcard.socketAddr.encode webEntry.src).length ≤ 8 := by
    change (0 :: ([192, 0, 2, 7] ++ Codec.encodeVarint (UInt16.toNat 40000))).length ≤ 8
    rw [List.length_cons, List.length_append]
    exact Nat.succ_le_succ (Nat.add_le_add_left port 4)
  have name : (asBytes "example.test:80").length = 15 := by decide
  have text : (Postcard.string.encode webEntry.target).length = 16 := by
    refine (Codec.list_byte_length Postcard.usize (fun _ => rfl) (asBytes "example.test:80")).trans ?_
    have length : Postcard.usize.encode 15 = [15] := Codec.encode_varint_small 15 (by decide)
    rw [name, length]
    rfl
  change (Postcard.counter.encode 1 ++ (Postcard.socketAddr.encode webEntry.src ++ (Postcard.string.encode webEntry.target ++
    ([0] ++ (Postcard.counter.encode 0 ++ Postcard.counter.encode 0))))).length ≤ 100
  rw [zero, one]
  simp only [List.length_append, text, List.length_singleton]
  omega

theorem web_frame_small : (Postcard.layout.head .default 1).length + (Postcard.layout.entry webEntry).length ≤ 2 ^ 20 := by
  have head := web_head_length
  have entry := web_entry_length
  omega

theorem stats_stream_iff_web : ∃ outputs s,
    Registry.machine.Run (Registry.start fun _ : Unit => webProgram "example.test") [(), (), (), ()] outputs s ∧
    s.metrics.connections = [webEntry] ∧ Survives Postcard.format (.stats .default s.metrics.connections) := by
  have run := Registry.machine.exec_run (Registry.start fun _ : Unit => webProgram "example.test") [(), (), (), ()] [] _ rfl
  refine ⟨[], _, run, rfl, ?_⟩
  refine (stats_stream_iff Postcard.format Postcard.format_decodes Postcard.layout .default Unit _ _ _ _ run
    (fun cap unset => nomatch unset) .default).1.mpr ?_
  exact web_frame_small

def longName : String := String.ofList (List.replicate 255 'a')

theorem target_covers_name (name : String) (port : UInt16) :
    (asBytes name).length ≤ (asBytes (Connect.addressToString (.domain name port))).length := by
  have joined : Connect.addressToString (.domain name port) = name ++ (":" ++ toString port) := String.append_assoc
  rw [joined]
  simp [asBytes]

theorem long_target : 255 ≤ (asBytes (Connect.addressToString (.domain longName 80))).length := by
  have text : asBytes longName = List.replicate 255 97 := Postcard.as_bytes_replicate 255
  have sized : (asBytes longName).length = 255 := by rw [text, List.length_replicate]
  have covered := target_covers_name longName 80
  rwa [sized] at covered

-- Five thousand connections at once, where the limits admit any number.
theorem stats_stream_breaks : ¬ ∀ (postcard : Postcard), Layout postcard → postcard.Decodes → ∀ (limits : Limits) (n : Nat)
    (programs : Fin n → Execution) (s : Registry.State (Fin n)), (∀ cap, limits.maxConnections = some cap → listed s ≤ cap) →
    Registry.machine.Reachable (Registry.start programs) s → ∀ snapshot, Survives postcard (.stats snapshot s.metrics.connections) := by
  intro survives
  obtain ⟨s, reached, running⟩ := Registry.crowd_gathers (τ := Fin 5000) (webProgram longName) _ _ _ (web_program_opens longName)
  obtain ⟨schedule, outputs, run⟩ := reached
  have consistent := Registry.inv_consistent _ outputs s (Registry.inv_run _ schedule outputs s run)
  have many : s.metrics.connections.length = 5000 := by
    rw [Registry.connections_length _ s consistent, listed, Census.census]
    have each : ∀ t, (s.tasks t).stage.listed.isSome.toNat = 1 := by
      intro t
      obtain ⟨r, stage, _⟩ := running t
      rw [stage]
      rfl
    simp [each]
  refine stats_rejected_crowded Postcard.format Postcard.format_decodes Postcard.layout .default s.metrics.connections 255 ?_ ?_
    (survives Postcard.format Postcard.layout Postcard.format_decodes .default 5000 _ s (by simp [Limits.default])
      ⟨schedule, outputs, run⟩ .default)
  · intro info known
    obtain ⟨t, listedThere⟩ := (Registry.connections_iff _ s consistent info).mp known
    obtain ⟨r, stage, target⟩ := running t
    rw [listing, stage, Option.map_some, Option.some.injEq] at listedThere
    have named : info.target = Connect.addressToString (.domain longName 80) := by rw [← listedThere, ← target]; rfl
    have covered := entry_covers_text info
    rw [named] at covered
    exact le_trans long_target covered
  · rw [many]
    decide

end Admin

end NextSocks5
