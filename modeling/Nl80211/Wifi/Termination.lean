/-
# Nl80211.Wifi.Termination — when an update comes back.

`WifiInfoUpdate` leaves its two loops only when `finish_handler` has cleared the flag, and only
`NLMSG_DONE` calls `finish_handler`.  So an update returns exactly when every request it makes gets
a good reply; a send that failed, an answer that ends with an error and an answer whose end was cut
off all leave it waiting for a datagram that does not come.  A string copied past the end of the
record is the other way not to return.

Whether there is a second request depends on the sign of the member `ifindex`, and with it on the
last message that writes the octet the sign is in (`Names`).
-/
import Nl80211.Lib.LastReport
import Nl80211.Wifi.Rounds

namespace Nl80211.Wifi

open Lib Lib.Bytes Libnl

/-- The outcomes of an update in which the two requests get the replies `r₁` and `r₂`. -/
def UpdateEnv.replied {s₁ s₂ : UInt32} (msg1 msg2 : Bool) (r₁ : Reply s₁) (r₂ : Reply s₂) :
    UpdateEnv :=
  ⟨msg1, r₁.outcome, msg2, r₂.outcome⟩

/-- The update comes to its end as it should: it returns, it has read the answers it asked for and
nothing more, and its result is negative when a send failed or an answer ended with an error. -/
def UpdateEnds (page : Nat) (w : World) (msg1 msg2 : Bool) (r₁ : Reply w.sk.seqNext)
    (r₂ : Reply (w.sk.seqNext + 1)) : Prop :=
  ∃ rc w', wifiInfoUpdate page (.replied msg1 msg2 r₁ r₂) w = .ok rc w' ∧ w'.queue = [] ∧
    (w.requests.length + 1 ≤ w'.requests.length → r₁.Failed → rc < 0) ∧
      (w.requests.length + 2 ≤ w'.requests.length → r₂.Failed → rc < 0)

/-! ## The sign of `ifindex` -/

/-- What a message leaves in the last octet of `ifindex`, which has the sign: an SSID that is copied
so far, else the `IFINDEX`, else a name that is copied so far. -/
def NameReport.signOctet (rep : NameReport) : Option UInt8 :=
  (rep.ssid.bind fun s => (s ++ [0])[57]?)
    |>.or (rep.ifindex.map fun n => UInt8.ofNat (n / 16777216))
    |>.or (rep.ifname.bind fun s => (s ++ [0])[87]?)

theorem octet_sign (mem : Mem) : (nameReport mem).octet 87 = (nameReport mem).signOctet := by
  have hmac := macFits mem
  generalize nameReport mem = rep at *
  -- the address ends before `ifindex`, the frequency goes behind it
  have hnomac : WifiMsg.textOctet .macAddr (rep.mac.map macText) 87 = none := by
    refine WifiMsg.textOctet_of_short fun t ht => ?_
    have : t.length < 20 := hmac t ht
    simp only [Member.macAddr]
    omega
  have hindex : WifiMsg.intOctet .ifindex rep.ifindex 87 =
      rep.ifindex.map fun n => UInt8.ofNat (n / 16777216) := by
    cases rep.ifindex with
    | none => rfl
    | some n =>
        have hdiv : n / 65536 / 256 = n / 16777216 := Nat.div_div_eq_div_mul ..
        simp [WifiMsg.intOctet, WifiMsg.putOctet, Member.ifindex, le32, le16, hdiv]
  rw [NameReport.octet, WifiMsg.intOctet_of_lt (by decide), WifiMsg.intOctet_of_lt (by decide),
    hnomac,
    hindex, Option.none_or, Option.none_or, Option.or_none]
  rfl

/-- The record names an interface after the messages: the last message that writes the sign of
`ifindex` leaves it positive, and if none does it was not negative before. -/
structure Names (r : WifiMsg) (ms : List NetMsg) : Prop where
  last : OfLast (fun m => ((nameReport m.image).signOctet).isSome)
    (fun m => ∀ b ∈ (nameReport m.image).signOctet, b < 128) ms
  old : (∀ m ∈ ms, (nameReport m.image).signOctet = none) → 0 ≤ r.int .ifindex

/-- An octet of the record after a list of messages is the one left there last. -/
theorem rd8_nameRecord (ms : List NetMsg) (r : WifiMsg) {i : Nat} (hi : i < wifiMsgSize) :
    rd8 (nameRecord r ms).mem i =
      lastReport (fun m => (nameReport m.image).octet i) (rd8 r.mem i) ms := by
  refine foldl_field _ (fun r : WifiMsg => rd8 r.mem i) _ (fun r m => ?_) ms r
  rw [getWifiName_val, NameReport.rd8_write _ _ hi]

theorem names_iff {ms : List NetMsg} {r : WifiMsg} :
    0 ≤ (nameRecord r ms).int .ifindex ↔ Names r ms := by
  have hoctet : (fun m : NetMsg => (nameReport m.image).octet 87) =
      fun m => (nameReport m.image).signOctet := funext fun m => octet_sign m.image
  rw [WifiMsg.int_nonneg_iff, show Member.ifindex.off + 3 = 87 from rfl,
    rd8_nameRecord ms r (by decide), hoctet, lastReport_iff (· < 128)]
  rw [← show Member.ifindex.off + 3 = 87 from rfl, ← WifiMsg.int_nonneg_iff]
  exact ⟨fun h => ⟨h.1, h.2⟩, fun h => ⟨h.last, h.old⟩⟩

/-! ## One update -/

section Update

variable {page : Nat} {w : World} {msg1 msg2 : Bool} {r₁ : Reply w.sk.seqNext}
  {r₂ : Reply (w.sk.seqNext + 1)}

/-- The number of the interface in the record when the interface phase is over. -/
def namedIfindex (page : Nat) (w : World) (r₁ : Reply w.sk.seqNext) : Int :=
  (nameRecord w.fields.wifi (r₁.delivered page)).int .ifindex

/-- Without a message for the first request nothing is sent. -/
theorem update_no_msg1 : wifiInfoUpdate page (.replied false msg2 r₁ r₂) w = .ok (-2) w.armed := rfl

/-- An interface phase that blocks blocks the update. -/
theorem update_blocked₁ (msg2 : Bool) (r₂ : Reply (w.sk.seqNext + 1)) (hw : Idle w)
    (h₁ : ¬ r₁.Good page) :
    ∃ w', wifiInfoUpdate page (.replied true msg2 r₁ r₂) w = .error .blocked w' := by
  obtain ⟨w', hrun⟩ := interfacePhase_bad page (.replied true msg2 r₁ r₂) hw rfl rfl h₁
  exact ⟨w', bind_error hrun⟩

/-- A string that leaves the record ends the update. -/
theorem update_overrun (msg2 : Bool) (r₂ : Reply (w.sk.seqNext + 1)) (hw : Idle w)
    (h₁ : r₁.Good page)
    (hb : ¬ AllBounded (r₁.delivered page)) :
    ∃ w', wifiInfoUpdate page (.replied true msg2 r₁ r₂) w = .error .undefined w' := by
  obtain ⟨w', hrun⟩ := interfacePhase_overrun page (.replied true msg2 r₁ r₂) hw rfl rfl h₁ hb
  exact ⟨w', bind_error hrun⟩

/-- Behind a good first reply the update goes on with what the interface phase has left. -/
theorem update_named (msg2 : Bool) (r₂ : Reply (w.sk.seqNext + 1)) (hw : Idle w) (h₁ : r₁.Good page)
    (hb : AllBounded (r₁.delivered page)) :
    ∃ w₁, Exchanged w w₁ (interfaceRequest w) (w.fields.named (r₁.delivered page)) ∧
      wifiInfoUpdate page (.replied true msg2 r₁ r₂) w =
        if namedIfindex page w r₁ < 0 then .ok (-1) w₁
        else
          match stationPhase page (.replied true msg2 r₁ r₂) w₁ with
          | .ok true w₂ => .ok 0 w₂
          | .ok false w₂ => .ok (-2) w₂
          | .error e w₂ => .error e w₂ := by
  obtain ⟨w₁, hrun, hx⟩ := interfacePhase_good page (.replied true msg2 r₁ r₂) hw rfl rfl h₁ hb
  refine ⟨w₁, hx, ?_⟩
  have hget : (get : Act World) w₁ = .ok w₁ w₁ := rfl
  have hidx : w₁.fields.wifi.int .ifindex = namedIfindex page w r₁ := by rw [hx.fields]; rfl
  rw [wifiInfoUpdate, bind_ok hrun, if_neg (by simp), bind_ok hget, hidx]
  split
  · rfl
  · simp only [bind, EStateM.bind]
    cases stationPhase page (.replied true msg2 r₁ r₂) w₁ with
    | ok b w₂ => cases b <;> rfl
    | error e w₂ => rfl

/-- A station phase that blocks blocks the update. -/
theorem update_blocked₂ (hw : Idle w) (h₁ : r₁.Good page) (hb : AllBounded (r₁.delivered page))
    (hidx : 0 ≤ namedIfindex page w r₁)
    (h₂ : ¬ r₂.Good page) :
    ∃ w', wifiInfoUpdate page (.replied true true r₁ r₂) w = .error .blocked w' := by
  obtain ⟨w₁, hx, hrun⟩ := update_named true r₂ hw h₁ hb
  obtain ⟨w₂, hsta⟩ := stationPhase_bad page (.replied true true r₁ r₂) (r := r₂)
    hx.idle (by rw [hx.fields]; exact Int.one_pos) rfl (by rw [hx.sk]) rfl h₂
  refine ⟨w₂, ?_⟩
  rw [hrun, if_neg (Int.not_lt.mpr hidx), hsta]

/-- Two good replies and an interface in the record: the update succeeds. -/
theorem update_done (hw : Idle w) (h₁ : r₁.Good page) (hb : AllBounded (r₁.delivered page))
    (hidx : 0 ≤ namedIfindex page w r₁) (h₂ : r₂.Good page) :
    ∃ w₁ w₂, wifiInfoUpdate page (.replied true true r₁ r₂) w = .ok 0 w₂ ∧
      Exchanged w w₁ (interfaceRequest w) (w.fields.named (r₁.delivered page)) ∧
        Exchanged w₁ w₂ (stationRequest w₁) (w₁.fields.informed (r₂.delivered page)) := by
  obtain ⟨w₁, hx₁, hrun⟩ := update_named true r₂ hw h₁ hb
  obtain ⟨w₂, hsta, hx₂⟩ := stationPhase_good page (.replied true true r₁ r₂)
    (r := r₂) hx₁.idle (by rw [hx₁.fields]; exact Int.one_pos) rfl (by rw [hx₁.sk]) rfl h₂
  refine ⟨w₁, w₂, ?_, hx₁, hx₂⟩
  rw [hrun, if_neg (Int.not_lt.mpr hidx), hsta]

/-- No interface in the record: the update returns without a second request. -/
theorem update_no_interface (msg2 : Bool) (r₂ : Reply (w.sk.seqNext + 1)) (hw : Idle w)
    (h₁ : r₁.Good page) (hb : AllBounded (r₁.delivered page)) (hidx : namedIfindex page w r₁ < 0) :
    ∃ w₁, wifiInfoUpdate page (.replied true msg2 r₁ r₂) w = .ok (-1) w₁ ∧
      Exchanged w w₁ (interfaceRequest w) (w.fields.named (r₁.delivered page)) := by
  obtain ⟨w₁, hx, hrun⟩ := update_named msg2 r₂ hw h₁ hb
  exact ⟨w₁, by rw [hrun, if_pos hidx], hx⟩

/-- Without a message for the second request it is not made. -/
theorem update_no_msg2 (r₂ : Reply (w.sk.seqNext + 1)) (hw : Idle w) (h₁ : r₁.Good page)
    (hb : AllBounded (r₁.delivered page)) (hidx : 0 ≤ namedIfindex page w r₁) :
    ∃ w₁, wifiInfoUpdate page (.replied true false r₁ r₂) w = .ok (-2) w₁ ∧
      Exchanged w w₁ (interfaceRequest w) (w.fields.named (r₁.delivered page)) := by
  obtain ⟨w₁, hx, hrun⟩ := update_named false r₂ hw h₁ hb
  refine ⟨w₁, ?_, hx⟩
  rw [hrun, if_neg (Int.not_lt.mpr hidx)]
  rfl

/-- Every request that the update makes gets a good reply, and every string copied from the first
ends inside the record. -/
def RepliesGood (page : Nat) (w : World) (msg1 msg2 : Bool) (r₁ : Reply w.sk.seqNext)
    (r₂ : Reply (w.sk.seqNext + 1)) : Prop :=
  msg1 = true → r₁.Good page ∧ AllBounded (r₁.delivered page) ∧
    (Names w.fields.wifi (r₁.delivered page) → msg2 = true → r₂.Good page)

/-- **Termination.** An update comes to its end as it should exactly when every request it makes was
sent, is answered up to `NLMSG_DONE` and has that end received, and no string is copied past the end
of the record. -/
theorem wifiInfoUpdate_ends_iff (hw : Idle w) :
    UpdateEnds page w msg1 msg2 r₁ r₂ ↔ RepliesGood page w msg1 msg2 r₁ r₂ := by
  constructor
  · rintro ⟨rc, w', hrun, -, -, -⟩ rfl
    -- a reply that is not good stops its phase, so a run that returned had none
    have h₁ : r₁.Good page := by
      by_contra h₁
      obtain ⟨w'', hblock⟩ := update_blocked₁ msg2 r₂ hw h₁
      cases hblock.symm.trans hrun
    have hb : AllBounded (r₁.delivered page) := by
      by_contra hb
      obtain ⟨w'', hstop⟩ := update_overrun msg2 r₂ hw h₁ hb
      cases hstop.symm.trans hrun
    refine ⟨h₁, hb, ?_⟩
    rintro hnames rfl
    by_contra h₂
    obtain ⟨w'', hblock⟩ := update_blocked₂ hw h₁ hb (names_iff.mpr hnames) h₂
    cases hblock.symm.trans hrun
  · intro hgood
    cases msg1 with
    | false =>
        exact ⟨-2, w.armed, update_no_msg1, hw.queue, fun _ _ => by decide, fun _ _ => by decide⟩
    | true =>
        obtain ⟨h₁, hb, h₂⟩ := hgood rfl
        have hok₁ := Reply.not_failed_of_good h₁
        by_cases hidx : namedIfindex page w r₁ < 0
        · obtain ⟨w₁, hrun, hx⟩ := update_no_interface msg2 r₂ hw h₁ hb hidx
          exact ⟨-1, w₁, hrun, hx.idle.queue, fun _ h => absurd h hok₁, fun _ _ => by decide⟩
        have hidx := Int.not_lt.mp hidx
        cases msg2 with
        | false =>
            obtain ⟨w₁, hrun, hx⟩ := update_no_msg2 r₂ hw h₁ hb hidx
            exact ⟨-2, w₁, hrun, hx.idle.queue, fun _ _ => by decide, fun _ _ => by decide⟩
        | true =>
            have h₂ := h₂ (names_iff.mp hidx) rfl
            obtain ⟨w₁, w₂, hrun, -, hx⟩ := update_done hw h₁ hb hidx h₂
            exact ⟨0, w₂, hrun, hx.idle.queue, fun _ h => absurd h hok₁,
              fun _ h => absurd h (Reply.not_failed_of_good h₂)⟩

end Update

/-- The kernel denies the request: an answer that is one error message, `EPERM`. -/
def denied : Reply 7 :=
  .answered (.single [] (.error 7 4294967295) (by decide) (by simp) (by decide)) (.inr (by decide))

/-- A denied request is waited for in vain. -/
theorem update_denied_blocks :
    ¬ UpdateEnds 16384 (World.opened 28 7) true true denied (.failed 1) := by
  rintro ⟨rc, w', hrun, -⟩
  have hbad : ¬ denied.Good 16384 := by decide
  obtain ⟨w'', hblock⟩ := update_blocked₁ (w := World.opened 28 7) true (.failed 1)
    (opened_idle 28 7) hbad
  cases hblock.symm.trans hrun

/-- A message that reports an interface index and nothing else. -/
def interfaceMsg (seq : UInt32) : NetMsg :=
  .build 28 nlmFMulti seq (genlPayload 7 [nlaPut nl80211AttrIfindex (le32 3)]) [] (by decide)

/-- The answer to request 7: one interface. -/
def oneInterface : Reply 7 :=
  .answered (.dump [interfaceMsg 7] (by decide) (by decide)) (.inl (by decide))

/-- The answer to request 8: no station. -/
def noStation : Reply 8 := .answered (.empty 8) (.inl (by decide))

theorem wifiInfoUpdate_ends_one_interface :
    UpdateEnds 16384 (World.opened 28 7) true true oneInterface noStation ∧
      RepliesGood 16384 (World.opened 28 7) true true oneInterface noStation := by
  have hgood : RepliesGood 16384 (World.opened 28 7) true true oneInterface noStation :=
    fun _ => ⟨show oneInterface.Good 16384 by decide,
      show AllBounded (oneInterface.delivered 16384) by decide +kernel,
      fun _ _ => show noStation.Good 16384 by decide⟩
  exact ⟨(wifiInfoUpdate_ends_iff (opened_idle 28 7)).mpr hgood, hgood⟩

end Nl80211.Wifi
