/-
# Nl80211.Wifi.Handlers — the two message handlers of `wifi_interface.cc`.

`get_wifi_name` takes an interface message, `get_wifi_info` a station message; both fill the one
record `wifi_msg`.  They are written here over the memory image of the message and log every access
(`Access`): the attribute headers they inspect, the values they read, the strings they copy and
where they write.  Octets behind the message are part of the image, so a copy that does not find its
terminator goes on reading as it would in memory.  Where it writes behind the record, the handler
`Overruns` it.
-/
import Nl80211.Libnl.Recv
import Nl80211.Wifi.Record

namespace Nl80211.Wifi

open Lib Lib.Bytes Libnl

/-! ## Numbers of `nl80211.h` and `handlers.h` -/

def nl80211AttrIfindex : Nat := 3
def nl80211AttrIfname : Nat := 4
def nl80211AttrMac : Nat := 6
def nl80211AttrStaInfo : Nat := 21
def nl80211AttrWiphyFreq : Nat := 38
def nl80211AttrSsid : Nat := 52
def nl80211AttrMax : Nat := 297

def nl80211StaInfoSignal : Nat := 7
def nl80211StaInfoTxBitrate : Nat := 8
def nl80211StaInfoMax : Nat := 43

def nl80211RateInfoBitrate : Nat := 1
def nl80211RateInfoMax : Nat := 17

/-- `stats_policy`. -/
def statsPolicy : Nat → NlaPolicy
  | 1 => { type := .u32 }      -- INACTIVE_TIME
  | 2 => { type := .u32 }      -- RX_BYTES
  | 3 => { type := .u32 }      -- TX_BYTES
  | 4 => { type := .u16 }      -- LLID
  | 5 => { type := .u16 }      -- PLID
  | 6 => { type := .u8 }       -- PLINK_STATE
  | 7 => { type := .u8 }       -- SIGNAL
  | 8 => { type := .nested }   -- TX_BITRATE
  | 9 => { type := .u32 }      -- RX_PACKETS
  | 10 => { type := .u32 }     -- TX_PACKETS
  | _ => {}

/-- `rate_policy`. -/
def ratePolicy : Nat → NlaPolicy
  | 1 => { type := .u16 }      -- BITRATE
  | 2 => { type := .u8 }       -- MCS
  | 3 => { type := .flag }     -- 40_MHZ_WIDTH
  | 4 => { type := .flag }     -- SHORT_GI
  | _ => {}

/-- The payload of a message of the family: `struct genlmsghdr`, then the attributes. -/
def genlPayload (cmd : Nat) (attrs : List Mem) : Mem :=
  [UInt8.ofNat cmd, 0, 0, 0] ++ attrs.flatten

/-! ## Helpers of the handlers -/

/-- `ieee80211_frequency_to_channel`; the division is C's, which rounds towards zero. -/
def ieee80211FrequencyToChannel (freq : Int) : Int :=
  -- channel 14, and channel 2 of the 6 GHz band
  if freq = 2484 then 14
  else if freq = 5935 then 2
  else if freq < 2484 then (freq - 2407).tdiv 5
  else if freq ≥ 4910 ∧ freq ≤ 4980 then (freq - 4000).tdiv 5
  else if freq < 5950 then (freq - 5000).tdiv 5
  else if freq ≤ 45000 then (freq - 5950).tdiv 5
  else if freq ≥ 58320 ∧ freq ≤ 70200 then (freq - 56160).tdiv 2160
  else 0

/-- One lower-case hexadecimal digit. -/
def hexDigit (n : Nat) : UInt8 := if n < 10 then UInt8.ofNat (48 + n) else UInt8.ofNat (87 + n)

/-- `sprintf` with `%02x`. -/
def hex02 (b : UInt8) : List UInt8 := [hexDigit (b.toNat / 16), hexDigit (b.toNat % 16)]

/-- `ETH_ALEN`. -/
def ethAlen : Nat := 6

/-- `sprintf` of the text `out` into the record, `l` octets into the array `dst`. -/
def sprintfInto (dst : Member) (l : Nat) (out : List UInt8) (r : WifiMsg) :
    Traced Access WifiMsg := do
  Traced.emit (.write dst.off dst.size l (out.length + 1))
  return r.put (dst.off + l) (out ++ [0])

/-- One turn of the loop of `mac_addr_n2a`; the state is the record and `l`. -/
def macAddrN2aStep (mem : Mem) (arg : Nat) (s : WifiMsg × Nat) (i : Nat) :
    Traced Access (WifiMsg × Nat) := do
  Traced.emit (.value (arg + i) 1)
  let b := rd8 mem (arg + i)
  if i = 0 then
    let r ← sprintfInto .macAddr s.2 (hex02 b) s.1
    return (r, s.2 + 2)
  else
    let r ← sprintfInto .macAddr s.2 (58 :: hex02 b) s.1
    return (r, s.2 + 3)

/-- `mac_addr_n2a`: the octets at `arg` as text, written into `mac_addr`. -/
def macAddrN2a (mem : Mem) (arg : Nat) (r : WifiMsg) : Traced Access WifiMsg := do
  let s ← (List.range ethAlen).foldlM (macAddrN2aStep mem arg) (r, 0)
  return s.1

/-- `strcpy` of the payload of the attribute at `nla` into a character array. -/
def strcpy (mem : Mem) (dst : Member) (nla : Nat) (r : WifiMsg) : Traced Access WifiMsg := do
  let s := cstr mem (nlaData nla)
  Traced.emit (.text nla (s.length + 1))
  Traced.emit (.write dst.off dst.size 0 (s.length + 1))
  return r.put dst.off (s ++ [0])

/-- Assignment to an `int` member. -/
def assign (dst : Member) (n : Nat) (r : WifiMsg) : Traced Access WifiMsg := do
  Traced.emit (.write dst.off dst.size 0 4)
  return r.putInt dst n

/-- `if (tb[..]) { .. }`: run `f` on the attribute if the index array has one. -/
def ifSet (nla : Option Nat) (r : WifiMsg) (f : Nat → Traced Access WifiMsg) :
    Traced Access WifiMsg :=
  match nla with
  | some nla => f nla
  | none => return r

/-! ## The handlers -/

/-- `get_wifi_name`. -/
def getWifiName (mem : Mem) (r : WifiMsg) : Traced Access (Int × WifiMsg) := do
  let gnlh := nlmsgData 0
  let tbMsg ← nlaParse mem nl80211AttrMax (genlmsgAttrdata gnlh 0) (genlmsgAttrlen mem gnlh 0) none
  let r ← ifSet (tbMsg.tb nl80211AttrIfname) r fun nla => strcpy mem .ifname nla r
  let r ← ifSet (tbMsg.tb nl80211AttrIfindex) r fun nla => do
    Traced.emit (.value (nlaData nla) 4)
    assign .ifindex (nlaGetU32 mem nla) r
  let r ← ifSet (tbMsg.tb nl80211AttrMac) r fun nla => macAddrN2a mem (nlaData nla) r
  let r ← ifSet (tbMsg.tb nl80211AttrSsid) r fun nla => strcpy mem .ssid nla r
  let r ← ifSet (tbMsg.tb nl80211AttrWiphyFreq) r fun nla => do
    Traced.emit (.value (nlaData nla) 4)
    let freq := nlaGetU32 mem nla
    let r ← assign .channel (ofInt32 (ieee80211FrequencyToChannel (toInt32 freq))) r
    assign .band freq r
  return (nlSkip, r)

/-- The `int` that `(int8_t) nla_get_u8(nla)` converts to. -/
def int8OfU8 (n : Nat) : Int := if n < 128 then n else (n : Int) - 256

/-- `get_wifi_info`. -/
def getWifiInfo (mem : Mem) (r : WifiMsg) : Traced Access (Int × WifiMsg) := do
  let gnlh := nlmsgData 0
  let tb ← nlaParse mem nl80211AttrMax (genlmsgAttrdata gnlh 0) (genlmsgAttrlen mem gnlh 0) none
  match tb.tb nl80211AttrStaInfo with
  | none => return (nlSkip, r)                       -- "sta stats missing!"
  | some staInfo =>
      let sinfo ← nlaParseNested mem nl80211StaInfoMax staInfo statsPolicy
      if sinfo.err ≠ 0 then return (nlSkip, r)       -- "failed to parse nested attributes!"
      else
        let r ← ifSet (sinfo.tb nl80211StaInfoSignal) r fun nla => do
          Traced.emit (.value (nlaData nla) 1)
          assign .signal (ofInt32 (int8OfU8 (nlaGetU8 mem nla))) r
        match sinfo.tb nl80211StaInfoTxBitrate with
        | none => return (nlSkip, r)
        | some txBitrate =>
            let rinfo ← nlaParseNested mem nl80211RateInfoMax txBitrate ratePolicy
            if rinfo.err ≠ 0 then return (nlSkip, r) -- "failed to parse nested rate attributes!"
            else
              let r ← ifSet (rinfo.tb nl80211RateInfoBitrate) r fun nla => do
                Traced.emit (.value (nlaData nla) 2)
                assign .txrate (nlaGetU16 mem nla) r
              return (nlSkip, r)

/-! ## Writes behind the record -/

/-- A write stays inside the record. -/
def InRecord : Access → Prop
  | .write dst _ off len => dst + off + len ≤ wifiMsgSize
  | .header _ | .value .. | .text .. => True

instance : (e : Access) → Decidable (InRecord e)
  | .write dst _ off len => inferInstanceAs (Decidable (dst + off + len ≤ wifiMsgSize))
  | .header _ | .value .. | .text .. => isTrue trivial

/-- Some write leaves the record: what lies behind it in memory is overwritten. -/
def Overruns {α : Type} (x : Traced Access α) : Prop := ∃ e ∈ x.log, ¬ InRecord e

instance {α : Type} (x : Traced Access α) : Decidable (Overruns x) :=
  inferInstanceAs (Decidable (∃ e ∈ x.log, ¬ InRecord e))

theorem overruns_iff {α : Type} {x : Traced Access α} :
    Overruns x ↔ ¬ Traced.Always InRecord x := by
  simp [Overruns, Traced.Always]

end Nl80211.Wifi
