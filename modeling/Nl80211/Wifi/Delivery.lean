/-
# Nl80211.Wifi.Delivery — any number of updates in a row.

Each update asks twice, so a run of updates has a run of answers whose numbers go up by one,
wrapping as the counters do (`Rounds`).  When every answer is a dump that is received whole, each
interface message is handed to `get_wifi_name` once, each station message to `get_wifi_info` once,
both in order, and nothing else is handed to either; every update returns `0` and leaves the
counters equal.

What can spoil this is not the protocol but the record: a name or SSID copied past its array can
reach the member `ifindex`, and a negative `ifindex` makes `WifiInfoUpdate` give up before it asks
for stations.
-/
import Nl80211.Wifi.Termination

namespace Nl80211.Wifi

open Lib Lib.Bytes Libnl

/-! ## Runs of updates -/

/-- The answers to the requests of a run of updates, the first of which is `seq`. -/
inductive Rounds : UInt32 → Type where
  | nil (seq : UInt32) : Rounds seq
  | cons {seq : UInt32} (ifaces : Answer seq) (stations : Answer (seq + 1))
      (rest : Rounds (seq + 1 + 1)) : Rounds seq

namespace Rounds

/-- The number of updates. -/
def length : {seq : UInt32} → Rounds seq → Nat
  | _, .nil _ => 0
  | _, .cons _ _ rest => rest.length + 1

/-- The outcomes in each update: memory for both messages, both sends succeed. -/
def envs : {seq : UInt32} → Rounds seq → List UpdateEnv
  | _, .nil _ => []
  | _, .cons ifaces stations rest =>
      ⟨true, .sent (incoming ifaces.parcels), true, .sent (incoming stations.parcels)⟩ :: rest.envs

/-- The messages that the handlers should get, in order. -/
def calls : {seq : UInt32} → Rounds seq → List Call
  | _, .nil _ => []
  | _, .cons ifaces stations rest =>
      (ifaces.messages.map fun m => .name m.image) ++
        (stations.messages.map fun m => .info m.image) ++ rest.calls

end Rounds

/-- An answer is a dump: it ends with `NLMSG_DONE`, and its datagrams fit the first buffer. -/
structure IsDump {seq : UInt32} (page : Nat) (a : Answer seq) : Prop where
  done : a.terminator.IsDone
  before : ∀ p ∈ a.before, p.Own seq → p.length ≤ page
  last : a.last.length ≤ page

/-- Some interface has an `IFINDEX`, and all of them are below 2^31. -/
structure HasIfindex (ms : List NetMsg) : Prop where
  some : ∃ m ∈ ms, ((nameReport m.image).ifindex).isSome
  small : ∀ m ∈ ms, ∀ n ∈ (nameReport m.image).ifindex, n < 2147483648

/-- What is asked of each round of a run. -/
def Rounds.All (P : ∀ {seq : UInt32}, Answer seq → Answer (seq + 1) → Prop) :
    {seq : UInt32} → Rounds seq → Prop
  | _, .nil _ => True
  | _, .cons ifaces stations rest => P ifaces stations ∧ rest.All P

/-- Every request of the run is answered with a dump, and the interface dumps carry indices. -/
def Rounds.Dumped {seq : UInt32} (page : Nat) (rs : Rounds seq) : Prop :=
  rs.All fun ifaces stations =>
    IsDump page ifaces ∧ IsDump page stations ∧ HasIfindex ifaces.messages

/-- No name or SSID of the run is copied as far as the member `ifindex`. -/
def Rounds.Stops {seq : UInt32} (rs : Rounds seq) : Prop :=
  rs.All fun ifaces _ => ∀ m ∈ ifaces.messages, (nameReport m.image).Stops

/-- A run of updates, with what each returned. -/
def updates (page : Nat) : List UpdateEnv → Act (List Int)
  | [] => return []
  | env :: envs => do
      let rc ← wifiInfoUpdate page env
      let rcs ← updates page envs
      return rc :: rcs

/-- The run hands every message to its handler once, in order, and no other; every update returns
`0`; nothing is left unread and the counters agree. -/
def Delivers (page : Nat) (w : World) (rs : Rounds w.sk.seqNext) : Prop :=
  ∃ w', updates page rs.envs w = .ok (List.replicate rs.length 0) w' ∧
    w'.fields.calls = w.fields.calls ++ rs.calls ∧ w'.queue = [] ∧
      w'.sk.seqExpect = w'.sk.seqNext

/-! ## One round -/

/-- All messages of a dump are delivered. -/
theorem IsDump.delivered_eq {seq : UInt32} {page : Nat} {a : Answer seq} (h : IsDump page a) :
    a.delivered page = a.messages := by
  rw [Answer.delivered, Answer.messages,
    Answer.received_of_fit a.before a.before_ok h.before (Nat.le_refl page)]

/-- A dump is a good reply. -/
theorem IsDump.good {seq : UInt32} {page : Nat} {a : Answer seq} (h : IsDump page a) :
    (Reply.answered a (.inl h.done)).Good page :=
  ⟨h.done, Nat.le_trans h.last (Answer.iovLenAfter_ge a.before (Nat.le_refl page))⟩

/-- The member `ifindex` after a list of interface messages whose copies stop short of it. -/
theorem ifindex_nameRecord {ms : List NetMsg} (h : ∀ m ∈ ms, (nameReport m.image).Stops)
    (r : WifiMsg) :
    (nameRecord r ms).int .ifindex =
      lastReport (fun m => (nameReport m.image).ifindex.map toInt32) (r.int .ifindex) ms := by
  induction ms generalizing r with
  | nil => rfl
  | cons m ms ih =>
      obtain ⟨hm, hms⟩ := List.forall_mem_cons.mp h
      rw [lastReport_cons, ← int_ifindex_write hm, ← ih hms]
      simp only [nameRecord, List.foldl_cons, getWifiName_val]

/-- After a list of interfaces with indices the record names one of them. -/
theorem ifindex_nonneg {ms : List NetMsg} (h : ∀ m ∈ ms, (nameReport m.image).Stops)
    (hi : HasIfindex ms) (r : WifiMsg) : 0 ≤ (nameRecord r ms).int .ifindex := by
  obtain ⟨⟨m, hm, hsome⟩, hsmall⟩ := hi
  rw [ifindex_nameRecord h, lastReport]
  obtain ⟨n, hn⟩ := Option.isSome_iff_exists.mp hsome
  have hne : ms.filterMap (fun m => (nameReport m.image).ifindex.map toInt32) ≠ [] :=
    List.ne_nil_of_mem (List.mem_filterMap.mpr ⟨m, hm, by rw [hn]; rfl⟩)
  rw [List.getLast?_eq_some_getLast hne, Option.getD_some]
  obtain ⟨m', hm', hlast⟩ := List.mem_filterMap.mp (List.getLast_mem hne)
  obtain ⟨n', hn', hval⟩ := Option.map_eq_some_iff.mp hlast
  rw [← hval, toInt32_of_lt (hsmall m' hm' n' hn')]
  exact Int.natCast_nonneg n'

/-- One update whose requests are both answered with dumps. -/
theorem update_dumped {page : Nat} {w : World} (hw : Idle w) {ifaces : Answer w.sk.seqNext}
    {stations : Answer (w.sk.seqNext + 1)} (hi : IsDump page ifaces) (hs : IsDump page stations)
    (hidx : HasIfindex ifaces.messages)
    (hstop : ∀ m ∈ ifaces.messages, (nameReport m.image).Stops) :
    ∃ w', wifiInfoUpdate page
        ⟨true, .sent (incoming ifaces.parcels), true, .sent (incoming stations.parcels)⟩ w =
          .ok 0 w' ∧ Idle w' ∧ w'.sk.seqNext = w.sk.seqNext + 1 + 1 ∧
      w'.fields.calls = w.fields.calls ++ ((ifaces.messages.map fun m => .name m.image) ++
        (stations.messages.map fun m => .info m.image)) := by
  have hnonneg : 0 ≤ namedIfindex page w (.answered ifaces (.inl hi.done)) := by
    rw [namedIfindex, Reply.delivered, hi.delivered_eq]
    exact ifindex_nonneg hstop hidx _
  have hb : AllBounded ((Reply.answered ifaces (.inl hi.done)).delivered page) := by
    rw [Reply.delivered, hi.delivered_eq]
    exact fun m hm => (hstop m hm).bounded
  obtain ⟨w₁, w₂, hrun, hx₁, hx₂⟩ := update_done hw hi.good hb hnonneg hs.good
  refine ⟨w₂, hrun, hx₂.idle, by rw [hx₂.sk, hx₁.sk], ?_⟩
  rw [hx₂.fields, Fields.informed, hx₁.fields, Fields.named, Reply.delivered, Reply.delivered,
    hi.delivered_eq, hs.delivered_eq, List.append_assoc]

/-! ## The whole run -/

/-- **Delivery.** In every run of updates answered with dumps in which no copied string reaches
`ifindex`, every message reaches its handler exactly once. -/
theorem updates_deliver {page : Nat} {w : World} (hw : Idle w) (rs : Rounds w.sk.seqNext)
    (hd : rs.Dumped page) (hstop : rs.Stops) : Delivers page w rs := by
  suffices h : ∀ {seq : UInt32} (rs : Rounds seq) (w : World), Idle w → w.sk.seqNext = seq →
      rs.Dumped page → rs.Stops →
      ∃ w', updates page rs.envs w = .ok (List.replicate rs.length 0) w' ∧
        w'.fields.calls = w.fields.calls ++ rs.calls ∧ w'.queue = [] ∧
          w'.sk.seqExpect = w'.sk.seqNext from h rs w hw rfl hd hstop
  -- the induction runs over the rounds, for every object that is idle at their number
  intro seq rs
  induction rs with
  | nil seq =>
      intro w hw _ _ _
      exact ⟨w, rfl, (List.append_nil _).symm, hw.queue, hw.sync⟩
  | cons ifaces stations rest ih =>
      rintro w hw rfl ⟨⟨hi, hs, hidx⟩, hd⟩ ⟨hstop, hstops⟩
      obtain ⟨w₁, hrun₁, hw₁, hseq, hcalls₁⟩ := update_dumped hw hi hs hidx hstop
      obtain ⟨w₂, hrun₂, hcalls₂, hq, hsync⟩ := ih w₁ hw₁ hseq hd hstops
      refine ⟨w₂, ?_, ?_, hq, hsync⟩
      · rw [Rounds.envs, updates, bind_ok hrun₁, bind_ok hrun₂]
        rfl
      · rw [hcalls₂, hcalls₁, Rounds.calls]
        simp only [List.append_assoc]

/-- A message of another request. -/
def strayMsg : NetMsg := .build 28 0 99 (genlPayload 7 []) [] (by decide)

/-- The answer to the last request before the counter wraps: a datagram of another request, then one
interface. -/
def lastAnswer : Answer 4294967295 where
  before := [⟨[strayMsg], by decide⟩]
  last := ⟨[interfaceMsg 4294967295, .done 4294967295], by decide⟩
  tail := [interfaceMsg 4294967295]
  terminator := .done 4294967295
  before_ok := by decide
  last_msgs := rfl
  tail_own := by decide
  seq_ok := NetMsg.done_seq 4294967295

/-- The answer behind it: no station. -/
def wrappedAnswer : Answer (4294967295 + 1) := .empty 0

theorem updates_deliver_wrapping :
    Delivers 16384 (World.opened 28 4294967295) (.cons lastAnswer wrappedAnswer (.nil _)) :=
  updates_deliver (opened_idle 28 4294967295) (.cons lastAnswer wrappedAnswer (.nil _))
    ⟨⟨⟨by decide, by decide, by decide⟩, ⟨by decide, by decide, by decide⟩,
      ⟨by decide +kernel, by decide +kernel⟩⟩, trivial⟩
    ⟨fun m hm => by
      have hall : ∀ m ∈ lastAnswer.messages, (nameReport m.image).ifname = none ∧
          (nameReport m.image).ssid = none := by decide +kernel
      obtain ⟨hname, hssid⟩ := hall m hm
      exact ⟨by simp [hname], by simp [hssid]⟩, trivial⟩

/-- One interface with an SSID of 32 octets and, behind it, an attribute without a zero octet among
its first 26: length and type are 257, and the payload starts with 22 octets of 255. -/
def spillingMsg : NetMsg :=
  .build 28 nlmFMulti 7
    (genlPayload 7
      [nlaPut nl80211AttrIfindex (le32 3), nlaPut nl80211AttrSsid (List.replicate 32 255),
        nlaPut 257 (List.replicate 22 255 ++ List.replicate 231 0)])
    [] (by decide +kernel)

/-- The answer to request 7: that interface. -/
def spillingInterface : Answer 7 :=
  .dump [spillingMsg] (by decide +kernel) (by decide +kernel)

/-- The answer to request 8: no station. -/
def emptyDump : Answer 8 := .empty 8

/-- The SSID is copied over `ifindex`: the update gives up with `-1`. -/
theorem update_spilling_gives_up :
    (Rounds.cons spillingInterface emptyDump (.nil _)).Dumped 16384 ∧
      ¬ Delivers 16384 (World.opened 28 7) (.cons spillingInterface emptyDump (.nil _)) := by
  have hi : IsDump 16384 spillingInterface :=
    ⟨by decide, by simp [spillingInterface, Answer.dump, Answer.single], by decide +kernel⟩
  refine ⟨⟨⟨hi, ⟨by decide, by decide, by decide⟩, ⟨by decide +kernel, by decide +kernel⟩⟩,
    trivial⟩, ?_⟩
  rintro ⟨w', hrun, -⟩
  have hidx : namedIfindex 16384 (World.opened 28 7)
      (.answered spillingInterface (.inl hi.done)) < 0 :=
    show (nameRecord WifiMsg.init (spillingInterface.delivered 16384)).int .ifindex < 0 by
      decide +kernel
  have hb : AllBounded (spillingInterface.delivered 16384) := by decide +kernel
  obtain ⟨w₁, hone, -⟩ := update_no_interface (w := World.opened 28 7) true
    (.answered emptyDump (.inl (by decide))) (opened_idle 28 7) hi.good hb hidx
  have hgave : updates 16384
      (Rounds.cons spillingInterface emptyDump (.nil _)).envs (World.opened 28 7) = .ok [-1] w₁ :=
    bind_ok hone
  cases hgave.symm.trans hrun

end Nl80211.Wifi
