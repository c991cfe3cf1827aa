import Mathlib.Data.List.Induction
import TextTunnel.Proofs.Session.History
import TextTunnel.Proofs.Tunnel.RoundTrip

/-!
# Tunnels that can talk to each other

Several tunnels join a hub under different names, each sends through its own handle and reads its
own inbox, and they agree on the whisper command and on the table of packets. Then a packet that one
of them sends to another is delivered to both, and the other can open it.

* `Company` -- such tunnels.
* `Session.start` -- they have joined and were set up; `start_eq` says what that session looks like.
* `Session.Seated` -- nobody has left since.
* `openPayload_of_prepare` -- what one of them prepares for another, the other can open.
-/

namespace TextTunnel

/-! ## 1. Companies -/

/-- Tunnels that can talk to each other over a hub with the given whisper command. -/
structure Company (command : String) (ts : List Tunnel) : Prop where
  names : (ts.map (·.self.name)).Nodup
  command_spaceless : ' ' ∉ command.toList
  name_spaceless : ∀ t ∈ ts, ' ' ∉ t.self.name.toList
  command_eq : ∀ t ∈ ts, t.config.relay.whisperCommand = command
  registry : ∃ registry : Registry, registry.Built ∧ ∀ t ∈ ts, t.registry = registry
  own : ∀ t ∈ ts, ∃ pair, t.keys.own = some pair ∧ pair.privateKey.Valid
  /-- Each key that one of them has for another is the other's own. -/
  contacts : ∀ t ∈ ts, ∀ u ∈ ts, ∀ key, t.keys.publicKeyOf u.self = some key →
    u.keys.own.map (·.publicKey) = some key
  lossless : ∀ t ∈ ts, t.compressor.Lossless

namespace Company

variable {command : String} {ts : List Tunnel}

/-- A name leads to one tunnel only. -/
theorem index_eq (hc : Company command ts) {i j : Nat} {t u : Tunnel} (ht : ts[i]? = some t)
    (hu : ts[j]? = some u) (h : t.self.name = u.self.name) : i = j := by
  obtain ⟨hi, -⟩ := List.getElem?_eq_some_iff.mp ht
  have hlen : i < (ts.map (·.self.name)).length := by rwa [List.length_map]
  refine (List.getElem?_inj hlen hc.names).mp ?_
  rw [List.getElem?_map, List.getElem?_map, ht, hu, Option.map_some, Option.map_some, h]

/-- What one tunnel prepares for another, the other can open. -/
theorem openPayload_of_prepare (hc : Company command ts) {t u : Tunnel} (ht : t ∈ ts) (hu : u ∈ ts)
    {noise : Rsa.Noise} {packet : Packet} {payload text : String}
    (hprepare : t.prepare noise packet u.self = .ok (payload, text))
    (hlimit : ∀ frame, t.registry.encodeFrame packet = .ok frame →
      frame.length ≤ u.config.limits.maxDecompressedLen) :
    u.openPayload payload = .ok packet := by
  obtain ⟨key, hkey, hseal, -⟩ := Tunnel.prepare_eq_ok_iff.mp hprepare
  obtain ⟨registry, hbuilt, hregistry⟩ := hc.registry
  obtain ⟨pair, hown, hvalid⟩ := hc.own u hu
  have hpair := hc.contacts t ht u hu key hkey
  rw [hown, Option.map_some, Option.some.injEq] at hpair
  subst hpair
  exact Tunnel.openPayload_of_sealPayload (hc.lossless t ht) (hregistry u hu ▸ hbuilt)
    ((hregistry t ht).trans (hregistry u hu).symm) hown hvalid hseal hlimit

end Company

namespace Session

/-! ## 2. Joining and setting up -/

/-- All tunnels have joined, one after another, and then were set up, each on its own handle and
inbox. -/
def start (maxMessageLen : Nat) (command : String) (ts : List Tunnel) : Session :=
  ((new maxMessageLen command).run (ts.map fun t => .join t.self)).run
    (ts.mapIdx fun i t => .setUp t t.self i)

/-- The members after all tunnels have joined. -/
def seats (ts : List Tunnel) : List Member :=
  ts.mapIdx fun i t => ⟨t.self, i⟩

theorem seats_concat (ts : List Tunnel) (t : Tunnel) :
    seats (ts ++ [t]) = seats ts ++ [⟨t.self, ts.length⟩] := by
  rw [seats, List.mapIdx_concat]
  rfl

theorem name_of_mem_seats {ts : List Tunnel} {m : Member} (hm : m ∈ seats ts) :
    m.peer.name ∈ ts.map (·.self.name) := by
  obtain ⟨i, hi, rfl⟩ := List.mem_mapIdx.mp hm
  exact List.mem_map.mpr ⟨ts[i], List.getElem_mem hi, rfl⟩

theorem run_join (maxMessageLen : Nat) (command : String) {ts : List Tunnel}
    (h : (ts.map (·.self.name)).Nodup) :
    (new maxMessageLen command).run (ts.map fun t => .join t.self)
      = ⟨⟨maxMessageLen, command, seats ts, List.replicate ts.length ⟨[], true⟩⟩, ts.map (·.self),
          [], 0⟩ := by
  induction ts using List.reverseRecOn with
  | nil => rfl
  | append_singleton ts t ih =>
    rw [List.map_append, List.nodup_append] at h
    obtain ⟨hnodup, -, hne⟩ := h
    have hleave : ∀ inboxes, (⟨maxMessageLen, command, seats ts, inboxes⟩ : Hub).leave t.self.name
        = ⟨maxMessageLen, command, seats ts, inboxes⟩ := by
      intro inboxes
      refine Hub.leave_of_forall_ne fun m hm => ?_
      exact hne m.peer.name (name_of_mem_seats hm) t.self.name List.mem_cons_self
    rw [List.map_append, run_append, ih hnodup, seats_concat, List.length_append,
      List.length_singleton, List.replicate_succ', List.map_append, List.map_singleton,
      List.map_singleton]
    show step _ (.join t.self) = _
    rw [step, Hub.join, hleave, List.length_replicate]

theorem run_setUp (s : Session) {ts : List Tunnel} (hhandles : ∀ t ∈ ts, t.self ∈ s.handles)
    (hinboxes : ts.length ≤ s.hub.inboxes.length) :
    s.run (ts.mapIdx fun i t => .setUp t t.self i)
      = { s with stations := s.stations ++ ts.mapIdx fun i t => ⟨t, t.self, i, t.newEcho⟩ } := by
  induction ts using List.reverseRecOn with
  | nil => rw [List.mapIdx_nil, List.mapIdx_nil, run_nil, List.append_nil]
  | append_singleton ts t ih =>
    rw [List.length_append, List.length_singleton] at hinboxes
    have ht : t.self ∈ s.handles := hhandles t (List.mem_append_right _ List.mem_cons_self)
    rw [List.mapIdx_concat, List.mapIdx_concat, run_concat,
      ih (fun u hu => hhandles u (List.mem_append_left _ hu)) (by omega), step,
      if_pos ⟨ht, by dsimp only; omega⟩, List.append_assoc]

/-- The session in which all tunnels have joined and were set up. -/
theorem start_eq (maxMessageLen : Nat) {command : String} {ts : List Tunnel}
    (hc : Company command ts) :
    start maxMessageLen command ts
      = ⟨⟨maxMessageLen, command, seats ts, List.replicate ts.length ⟨[], true⟩⟩, ts.map (·.self),
          ts.mapIdx fun i t => ⟨t, t.self, i, t.newEcho⟩, 0⟩ := by
  rw [start, run_join maxMessageLen command hc.names, run_setUp]
  · rfl
  · exact fun t ht => List.mem_map.mpr ⟨t, ht, rfl⟩
  · exact Nat.le_of_eq List.length_replicate.symm

/-! ## 3. Everybody in place -/

/-- The members are the tunnels in their order, and somebody listens at each inbox. -/
structure Seated (maxMessageLen : Nat) (command : String) (ts : List Tunnel) (h : Hub) : Prop where
  maxMessageLen_eq : h.maxMessageLen = maxMessageLen
  command_eq : h.whisperCommand = command
  members : h.members = seats ts
  accepts : ∀ i < ts.length, h.accepts i = true

namespace Seated

variable {maxMessageLen : Nat} {command : String} {ts : List Tunnel} {h : Hub}

/-- Each tunnel is found under its name. -/
theorem find (hs : Seated maxMessageLen command ts h) (hc : Company command ts) {i : Nat}
    {t : Tunnel} (ht : ts[i]? = some t) : h.find t.self.name = some ⟨t.self, i⟩ := by
  have hmem : (⟨t.self, i⟩ : Member) ∈ seats ts := by
    refine List.mem_iff_getElem?.mpr ⟨i, ?_⟩
    rw [seats, List.getElem?_mapIdx, ht, Option.map_some]
  rw [Hub.find, hs.members]
  cases hfind : (seats ts).find? fun m => m.peer.name == t.self.name with
  | none => exact absurd (beq_self_eq_true t.self.name) (List.find?_eq_none.mp hfind _ hmem)
  | some m =>
    obtain ⟨j, hj, rfl⟩ := List.mem_mapIdx.mp (List.mem_of_find?_eq_some hfind)
    have hname : ts[j].self.name = t.self.name := by simpa using List.find?_some hfind
    obtain rfl := hc.index_eq (List.getElem?_eq_getElem hj) ht hname
    obtain rfl := Option.some.inj ((List.getElem?_eq_getElem hj).symm.trans ht)
    rfl

/-- What one of them sends to another is delivered to both. -/
theorem send_address (hs : Seated maxMessageLen command ts h) (hc : Company command ts) {i j : Nat}
    {t u : Tunnel} (ht : ts[i]? = some t) (hu : ts[j]? = some u) {payload : String}
    (hlen : (t.address u.self payload).length ≤ h.maxMessageLen) :
    h.send t.self (t.address u.self payload) = (.ok (),
      h.deliverAll ⟨Wire.envelopeHeader ++ payload, t.self⟩ [⟨u.self, j⟩, ⟨t.self, i⟩]) := by
  have hcommand : t.config.relay.whisperCommand = h.whisperCommand :=
    (hc.command_eq t (List.mem_of_getElem? ht)).trans hs.command_eq.symm
  rw [Tunnel.address, hcommand] at hlen ⊢
  exact Hub.send_write (hs.command_eq ▸ hc.command_spaceless)
    (hc.name_spaceless u (List.mem_of_getElem? hu)) (hs.find hc ht) (hs.find hc hu) hlen

theorem takeFirst (hs : Seated maxMessageLen command ts h) (n : Nat) :
    Seated maxMessageLen command ts (h.takeFirst n).2 where
  maxMessageLen_eq := hs.maxMessageLen_eq
  command_eq := hs.command_eq
  members := hs.members
  accepts := fun i hi => (Hub.accepts_takeFirst h n i).trans (hs.accepts i hi)

theorem deliverAll (hs : Seated maxMessageLen command ts h) (msg : RelayMessage)
    (ms : List Member) : Seated maxMessageLen command ts (h.deliverAll msg ms).1 := by
  rw [Hub.deliverAll_eq]
  exact ⟨hs.maxMessageLen_eq, hs.command_eq, hs.members, fun i hi => by
    have haccepts := Hub.accepts_deliverAll h msg ms i
    rw [Hub.deliverAll_eq] at haccepts
    exact haccepts.trans (hs.accepts i hi)⟩

end Seated

theorem seated_start (maxMessageLen : Nat) {command : String} {ts : List Tunnel}
    (hc : Company command ts) :
    Seated maxMessageLen command ts (start maxMessageLen command ts).hub := by
  rw [start_eq maxMessageLen hc]
  refine ⟨rfl, rfl, rfl, fun i hi => ?_⟩
  rw [Hub.accepts, Hub.inbox?, List.getElem?_replicate, if_pos hi]

theorem waiting_start (maxMessageLen : Nat) {command : String} {ts : List Tunnel}
    (hc : Company command ts) (i : Nat) : (start maxMessageLen command ts).hub.waiting i = [] := by
  rw [start_eq maxMessageLen hc, Hub.waiting, Hub.inbox?, List.getElem?_replicate]
  by_cases hi : i < ts.length
  · rw [if_pos hi]
  · rw [if_neg hi]

/-! ## 4. Ann and ben -/

/-- Two participants who hold each other's key. -/
def duo : List Tunnel :=
  [.acquainted Tunnel.ann, .acquainted Tunnel.ben]

theorem company_duo : Company Wire.defaultWhisperCommand duo where
  names := by decide
  command_spaceless := by decide
  name_spaceless := by decide
  command_eq := by simp [duo, Tunnel.acquainted]
  registry := ⟨.standard, Registry.built_standard, by simp [duo, Tunnel.acquainted]⟩
  own := by
    intro t ht
    refine ⟨.pierpont, ?_, Rsa.Keypair.valid_pierpont⟩
    rcases List.mem_pair.mp ht with rfl | rfl <;> rfl
  contacts := by
    intro t ht u hu key hkey
    rcases List.mem_pair.mp ht with rfl | rfl <;> rcases List.mem_pair.mp hu with rfl | rfl <;>
      exact hkey
  lossless := by
    intro t ht
    rcases List.mem_pair.mp ht with rfl | rfl <;> exact Gzip.lossless_inMemory

/-- Ann and ben have joined a hub with the usual settings. -/
def together : Session :=
  start Wire.defaultMaxMessageLen Wire.defaultWhisperCommand duo

theorem together_eq : together
    = ⟨⟨Wire.defaultMaxMessageLen, Wire.defaultWhisperCommand, seats duo,
        List.replicate duo.length ⟨[], true⟩⟩, duo.map (·.self),
        duo.mapIdx fun i t => ⟨t, t.self, i, t.newEcho⟩, 0⟩ :=
  start_eq Wire.defaultMaxMessageLen company_duo

/-- Ann greets ben. -/
def greet : Action :=
  .sendPacket 0 (.numbered 0) Tunnel.greeting Tunnel.ben

/-- Both get the message, and ben can open it. -/
theorem exists_greeted :
    ∃ payload, together.added? greet
        = some (.sent ⟨0, Tunnel.greeting, Tunnel.ben, payload, 0⟩) ∧
      (∀ i < 2, (together.step greet).hub.waiting i
        = [⟨Wire.envelopeHeader ++ payload, Tunnel.ann⟩]) ∧
      (Tunnel.acquainted Tunnel.ben).openPayload payload = .ok Tunnel.greeting := by
  obtain ⟨payload, hprepare⟩ := Tunnel.exists_prepare_greeting (.numbered 0)
  have hseated := seated_start Wire.defaultMaxMessageLen company_duo
  have hlen := (Tunnel.prepare_eq_ok_iff.mp hprepare).choose_spec.2.2.2
  have hsend := hseated.send_address company_duo (i := 0) (j := 1) rfl rfl
    (hlen.trans_eq hseated.maxMessageLen_eq.symm)
  have hstation : together.stations[0]?
      = some ⟨.acquainted Tunnel.ann, Tunnel.ann, 0, (Tunnel.acquainted Tunnel.ann).newEcho⟩ := by
    rw [together_eq]
    rfl
  have hpayload := payload?_of_prepare hstation hprepare
  have hnow : together.now = 0 := by rw [together_eq]
  obtain ⟨t, hsent, -, hhub⟩ := sent_accepted hstation hprepare hsend
  refine ⟨payload, ?_, fun i hi => ?_, ?_⟩
  · rw [greet, added?, hsent, hpayload, hnow]
  · rw [greet, step, hsent]
    dsimp only
    rw [keep, hhub, Hub.waiting_deliverAll, waiting_start _ company_duo, hseated.accepts i hi]
    obtain rfl | rfl : i = 0 ∨ i = 1 := by omega
    · rfl
    · rfl
  · refine company_duo.openPayload_of_prepare List.mem_cons_self (List.mem_pair.mpr (.inr rfl))
      hprepare fun frame hframe => ?_
    obtain rfl := Except.ok.inj (Tunnel.encodeFrame_greeting.symm.trans hframe)
    decide

end Session

end TextTunnel
