/-
# Nl80211.Wifi.Copies — where `get_wifi_name` copies its strings from and to.

`strcpy` goes by the next zero octet and not by the length of the attribute.  An IFNAME brings its
own terminator; an SSID does not, so what is copied depends on the octet behind it, which is
padding, the length of the next attribute or whatever lies behind the message.  A copy stays in its
fields exactly when that octet is zero and leaves room for the terminator, or the SSID itself holds
a zero.
-/
import Nl80211.Libnl.Inspect
import Nl80211.Libnl.Packet
import Nl80211.Wifi.Accesses
import Mathlib

namespace Nl80211.Wifi

open Lib Lib.Bytes Libnl

/-! ## What the copies should be -/

/-- The attributes as the kernel sends them: a name of at most 15 characters with its terminator, an
SSID of at most 32 octets without one. -/
structure KernelStrings (mem : Mem) : Prop where
  ifname : ∀ a ∈ topAttr mem nl80211AttrIfname, ∃ name : List UInt8,
    name.length ≤ 15 ∧ (∀ x ∈ name, x ≠ 0) ∧ nlaPayload mem a = name ++ [0]
  ssid : ∀ a ∈ topAttr mem nl80211AttrSsid, (nlaPayload mem a).length ≤ 32

/-- A copy takes its octets, the terminator apart, from the payload of its attribute, and a write
stays inside its array. -/
def InField (mem : Mem) : Access → Prop
  | .text nla len => len ≤ (nlaPayload mem nla).length + 1
  | .write _ size off len => off + len ≤ size
  | .header _ | .value .. => True

/-- Every character array holds a terminator. -/
def Terminated (r : WifiMsg) : Prop := ∀ f ∈ charArrays, 0 ∈ r.raw f

instance (r : WifiMsg) : Decidable (Terminated r) :=
  inferInstanceAs (Decidable (∀ f ∈ charArrays, _))

/-- What one message should do: copies inside the fields, arrays terminated afterwards, and every
member as its own attribute alone would leave it. -/
structure CopiesInField (mem : Mem) (r : WifiMsg) : Prop where
  inField : Traced.Always (InField mem) (getWifiName mem r)
  terminated : Terminated (getWifiName mem r).val.2
  own : ∀ f ∈ members,
    (getWifiName mem r).val.2.raw f = (((nameReport mem).only f).write r).raw f

/-- The same along a sequence of messages. -/
def SequenceInField : List Mem → WifiMsg → Prop
  | [], _ => True
  | mem :: ms, r => CopiesInField mem r ∧ SequenceInField ms (getWifiName mem r).val.2

/-- The SSID of the message, if it has one, holds a zero octet, or it is followed by one and leaves
room for the terminator. -/
def SsidStops (mem : Mem) : Prop :=
  ∀ a ∈ topAttr mem nl80211AttrSsid,
    0 ∈ nlaPayload mem a ∨
      (nlaPayload mem a).length < 32 ∧ rd8 mem (nlaData a + (nlaPayload mem a).length) = 0

instance (mem : Mem) : Decidable (SsidStops mem) :=
  inferInstanceAs (Decidable (∀ a ∈ topAttr mem nl80211AttrSsid, _))

/-! ## The accesses -/

/-- The copied name and SSID of a message stay where they should. -/
def TextsInField (mem : Mem) : Prop :=
  (∀ a ∈ topAttr mem nl80211AttrIfname,
    (cstr mem (nlaData a)).length ≤ (nlaPayload mem a).length ∧
      (cstr mem (nlaData a)).length < Member.ifname.size) ∧
  ∀ a ∈ topAttr mem nl80211AttrSsid,
    (cstr mem (nlaData a)).length ≤ (nlaPayload mem a).length ∧
      (cstr mem (nlaData a)).length < Member.ssid.size

theorem strcpy_inField {mem : Mem} {dst : Member} {nla : Nat} {r : WifiMsg} :
    Traced.Always (InField mem) (strcpy mem dst nla r) ↔
      (cstr mem (nlaData nla)).length ≤ (nlaPayload mem nla).length ∧
        (cstr mem (nlaData nla)).length < dst.size := by
  rw [always_strcpy, InField, InField]
  omega

/-- Everything but the two copies is in order for every message. -/
theorem getWifiName_inField {mem : Mem} {r : WifiMsg} :
    Traced.Always (InField mem) (getWifiName mem r) ↔ TextsInField mem := by
  have hparse : Traced.Always (InField mem) (topParse mem) :=
    nlaParse_headers (fun _ => trivial) _ _
  have hmac (a : Nat) : Traced.Always (InField mem) (macAddrN2a mem (nlaData a) r) := by
    refine always_macAddrN2a.mpr ⟨fun _ _ => trivial, by simp [InField, Member.macAddr], ?_⟩
    intro i hi
    simp only [InField, Member.macAddr]
    omega
  have hint {dst : Member} (h : 4 ≤ dst.size) : Traced.Always (InField mem) (assign dst 0 r) :=
    always_assign.mpr (by simpa [InField] using h)
  rw [always_getWifiName]
  constructor
  · rintro ⟨-, hname, -, -, hssid, -⟩
    exact ⟨fun a ha => strcpy_inField.mp (hname a ha), fun a ha => strcpy_inField.mp (hssid a ha)⟩
  · rintro ⟨hname, hssid⟩
    exact ⟨hparse, fun a ha => strcpy_inField.mpr (hname a ha), fun _ _ =>
      ⟨trivial, hint (by decide)⟩,
      fun a _ => hmac a, fun a ha => strcpy_inField.mpr (hssid a ha),
      fun _ _ => ⟨trivial, hint (by decide), hint (by decide)⟩⟩

/-! ## Where a copy ends -/

section Ends

variable {mem : Mem} {a : Nat}

theorem rd8_payload {k : Nat} (hk : k < (nlaPayload mem a).length) :
    rd8 mem (nlaData a + k) = (nlaPayload mem a)[k] :=
  (octets_getElem hk).symm

/-- The copy of a payload with a zero octet ends inside it. -/
theorem cstr_payload_lt (h : 0 ∈ nlaPayload mem a) :
    (cstr mem (nlaData a)).length < (nlaPayload mem a).length := by
  obtain ⟨k, hk, h0⟩ := List.getElem_of_mem h
  exact Nat.lt_of_le_of_lt (cstr_length_le ((rd8_payload hk).trans h0)) hk

/-- A copy that ends inside its payload does so at a zero octet of it. -/
theorem zero_mem_of_cstr_lt (h : (cstr mem (nlaData a)).length < (nlaPayload mem a).length) :
    0 ∈ nlaPayload mem a := by
  have h0 := rd8_cstr_length mem (nlaData a)
  rw [rd8_payload h] at h0
  exact h0 ▸ List.getElem_mem h

/-- The name of an interface is copied as it is. -/
theorem ifname_inField (hk : KernelStrings mem) (ha : a ∈ topAttr mem nl80211AttrIfname) :
    (cstr mem (nlaData a)).length ≤ (nlaPayload mem a).length ∧
      (cstr mem (nlaData a)).length < Member.ifname.size := by
  obtain ⟨name, hlen, -, hpay⟩ := hk.ifname a ha
  have hlt : (cstr mem (nlaData a)).length < (nlaPayload mem a).length :=
    cstr_payload_lt (by simp [hpay])
  rw [hpay, List.length_append, List.length_singleton] at hlt ⊢
  simp only [Member.ifname]
  omega

/-- The two ways an SSID can end in time. -/
theorem ssid_inField_iff (hk : KernelStrings mem) (ha : a ∈ topAttr mem nl80211AttrSsid) :
    ((cstr mem (nlaData a)).length ≤ (nlaPayload mem a).length ∧
        (cstr mem (nlaData a)).length < Member.ssid.size) ↔
      (0 ∈ nlaPayload mem a ∨
        (nlaPayload mem a).length < 32 ∧ rd8 mem (nlaData a + (nlaPayload mem a).length) = 0) := by
  have h32 := hk.ssid a ha
  simp only [Member.ssid]
  constructor
  · rintro ⟨hle, hlt⟩
    rcases Nat.lt_or_eq_of_le hle with h | h
    · exact .inl (zero_mem_of_cstr_lt h)
    · exact .inr ⟨by omega, by rw [← h]; exact rd8_cstr_length ..⟩
  · rintro (h | ⟨hlt, h0⟩)
    · have := cstr_payload_lt h
      exact ⟨by omega, by omega⟩
    · have := cstr_length_le h0
      exact ⟨this, by omega⟩

theorem textsInField_iff (hk : KernelStrings mem) : TextsInField mem ↔ SsidStops mem := by
  refine ⟨fun h a ha => (ssid_inField_iff hk ha).mp (h.2 a ha), fun h => ⟨?_, ?_⟩⟩
  · exact fun a ha => ifname_inField hk ha
  · exact fun a ha => (ssid_inField_iff hk ha).mpr (h a ha)

end Ends

/-! ## What the record holds then -/

theorem TextsInField.fits {mem : Mem} (h : TextsInField mem) : (nameReport mem).Fits where
  ifname t ht := by
    obtain ⟨a, ha, rfl⟩ := Option.map_eq_some_iff.mp ht
    exact (h.1 a ha).2
  ssid t ht := by
    obtain ⟨a, ha, rfl⟩ := Option.map_eq_some_iff.mp ht
    exact (h.2 a ha).2

namespace WifiMsg

variable {r : WifiMsg} {f : Member}

/-- A member whose C string ends inside it holds a terminator. -/
theorem zero_mem_raw (h : (r.text f).length < f.size) : 0 ∈ r.raw f := by
  by_contra hno
  have hall : r.text f = r.raw f := by
    rw [text, List.takeWhile_eq_self_iff]
    intro x hx
    exact decide_eq_true fun h0 => hno (h0 ▸ hx)
  rw [hall] at h
  simp [raw] at h

theorem text_length_lt (h : 0 ∈ r.raw f) : (r.text f).length < f.size := by
  have hle : (r.text f).length ≤ (r.raw f).length := (List.takeWhile_sublist _).length_le
  have hraw : (r.raw f).length = f.size := by simp [raw]
  rcases Nat.lt_or_eq_of_le hle with hlt | heq
  · omega
  · have hall : r.text f = r.raw f := (List.takeWhile_prefix _).eq_of_length heq
    rw [text, List.takeWhile_eq_self_iff] at hall
    simpa using hall 0 h

end WifiMsg

/-- A string that ends inside its array is read to its end and no further. -/
theorem cstr_eq_text {r : WifiMsg} {f : Member} (h : (r.text f).length < f.size) :
    cstr r.mem f.off = r.text f := by
  have hlt : (cstr r.mem f.off).length < f.size := by
    by_contra hge
    -- the array holds a zero, and the string ends at the first one
    obtain ⟨k, hk, h0⟩ := List.getElem_of_mem (WifiMsg.zero_mem_raw h)
    have hk' : k < f.size := by simpa [WifiMsg.raw] using hk
    simp only [WifiMsg.raw, octets_getElem] at h0
    exact rd8_cstr_lt (by omega) h0
  obtain ⟨rest, hsize⟩ := Nat.exists_eq_add_of_lt hlt
  have hraw : r.raw f = cstr r.mem f.off ++
      0 :: octets r.mem (f.off + ((cstr r.mem f.off).length + 1)) rest := by
    have hone : octets r.mem (f.off + (cstr r.mem f.off).length) 1 = [0] := by
      simp [octets, rd8_cstr_length]
    rw [show r.raw f = octets r.mem f.off f.size from rfl, hsize, Nat.add_right_comm, octets_add,
      octets_add, ← cstr_eq_octets_length, hone, List.append_assoc, List.singleton_append]
  rw [WifiMsg.text, hraw, List.takeWhile_append_of_pos, List.takeWhile_cons_of_neg (by simp),
    List.append_nil]
  exact fun x hx => decide_eq_true (ne_zero_of_mem_cstr hx)

/-- Arrays stay terminated where the strings fit. -/
theorem terminated_write {mem : Mem} (hfit : (nameReport mem).Fits) {r : WifiMsg}
    (hr : Terminated r) : Terminated ((nameReport mem).write r) := by
  have hview := view_write hfit r
  have hmac := macFits mem
  have long {f : Member} (hf : f ∈ charArrays) {s : Option (List UInt8)}
      (hs : WifiMsg.FitsIn f s) (htext : ((nameReport mem).write r).text f = s.getD (r.text f)) :
      0 ∈ ((nameReport mem).write r).raw f := by
    refine WifiMsg.zero_mem_raw ?_
    rw [htext]
    cases s with
    | none => exact WifiMsg.text_length_lt (hr f hf)
    | some t => exact hs t rfl
  intro f hf
  simp only [charArrays, List.mem_cons, List.not_mem_nil, or_false] at hf
  rcases hf with rfl | rfl | rfl
  · exact long (by decide) hfit.ifname (congrArg WifiView.ifname hview)
  · exact long (by decide) hfit.ssid (congrArg WifiView.ssid hview)
  · exact long (by decide) hmac (congrArg WifiView.macAddr hview)

/-! ## Every message, every sequence -/

/-- One message: everything is in its field exactly when the SSID ends in time. -/
theorem copiesInField_iff {mem : Mem} (hk : KernelStrings mem) {r : WifiMsg} (hr : Terminated r) :
    CopiesInField mem r ↔ SsidStops mem := by
  rw [← textsInField_iff hk]
  refine ⟨fun h => getWifiName_inField.mp h.inField, fun h => ?_⟩
  refine ⟨getWifiName_inField.mpr h, ?_, fun f hf => ?_⟩
  · rw [getWifiName_val]
    exact terminated_write h.fits hr
  · rw [getWifiName_val]
    exact NameReport.raw_write_only h.fits (macFits mem) r hf

/-- **Copies.** Along a sequence of messages from the kernel every copy stays in its field exactly
when the SSID of every message ends in time. -/
theorem sequenceInField_iff {ms : List Mem} (hk : ∀ mem ∈ ms, KernelStrings mem) {r : WifiMsg}
    (hr : Terminated r) : SequenceInField ms r ↔ ∀ mem ∈ ms, SsidStops mem := by
  induction ms generalizing r with
  | nil => simp [SequenceInField]
  | cons mem ms ih =>
      rw [List.forall_mem_cons] at hk
      rw [SequenceInField, copiesInField_iff hk.1 hr, List.forall_mem_cons]
      refine and_congr_right fun hstop => ih hk.2 ?_
      exact ((copiesInField_iff hk.1 hr).mpr hstop).terminated

/-- A message about `wlan0`, associated to `ssid`, on channel 1. -/
def associated (ssid : List UInt8) (h : ssid.length ≤ 32) : Mem :=
  (NetMsg.build 28 nlmFMulti 7
    (genlPayload 7
      [nlaPut nl80211AttrIfname (ascii "wlan0" ++ [0]), nlaPut nl80211AttrSsid ssid,
        nlaPut nl80211AttrWiphyFreq (le32 2412)])
    [] (by
      have := align4_lt (nlaHdrlen + ssid.length)
      simp [genlPayload, nlaPut, nlmsgHdrlen, nlaHdrlen, ascii, align4] at this ⊢
      omega)).image

/-- `home` fills its attribute; behind `lan` there is an octet of padding. -/
def home : Mem := associated (ascii "home") (by decide)

def lan : Mem := associated (ascii "lan") (by decide)

theorem associated_kernelStrings : KernelStrings home ∧ KernelStrings lan := by
  have hhome : topAttr home nl80211AttrIfname = some 20 := by decide +kernel
  have hlan : topAttr lan nl80211AttrIfname = some 20 := by decide +kernel
  refine ⟨⟨fun a ha => ⟨ascii "wlan0", by decide, by decide +kernel, ?_⟩, by decide +kernel⟩,
    ⟨fun a ha => ⟨ascii "wlan0", by decide, by decide +kernel, ?_⟩, by decide +kernel⟩⟩
  · cases hhome.symm.trans ha
    decide +kernel
  · cases hlan.symm.trans ha
    decide +kernel

theorem init_terminated : Terminated .init := by
  decide

/-- The length of the attribute behind the SSID `home` is copied with it. -/
theorem home_not_inField : KernelStrings home ∧ ¬ SequenceInField [home] .init := by
  refine ⟨associated_kernelStrings.1, fun h => ?_⟩
  have hstop : SsidStops home :=
    (copiesInField_iff associated_kernelStrings.1 init_terminated).mp h.1
  revert hstop
  decide +kernel

theorem lan_inField : SequenceInField [lan] .init := by
  have hk : ∀ mem ∈ [lan], KernelStrings mem := by simpa using associated_kernelStrings.2
  have hstop : ∀ mem ∈ [lan], SsidStops mem := by
    rw [List.forall_mem_singleton]
    decide +kernel
  exact (sequenceInField_iff hk init_terminated).mpr hstop

end Nl80211.Wifi
