/-
# Nl80211.Iw.Link — `iw <dev> link`.

Two requests: a dump of the networks in range, and, if the interface is associated with one, the
station behind it.  `link_bss_handler` picks the network out of the dump and keeps its address,
`handle_link` writes the address into an argument list, and `handle_link_sta` reads it there again.
Whatever the kernel answers, the second request asks for the last network of the dump that the
interface is associated with, and there is none if there is no such network (`handleLink_served`).
-/
import Nl80211.Iw.Command
import Nl80211.Iw.Station
import Mathlib

namespace Nl80211.Iw

open Lib Lib.Bytes Lib.Snprintf Libnl Wifi

/-! ## Addresses in an argument list -/

/-- `isspace` of the C locale. -/
def isspace (c : UInt8) : Bool := c = 32 || (9 ≤ c && c ≤ 13)

/-- The value of a hexadecimal digit. -/
def hexVal (c : UInt8) : Option Nat :=
  if 48 ≤ c ∧ c ≤ 57 then some (c.toNat - 48)
  else if 97 ≤ c ∧ c ≤ 102 then some (c.toNat - 87)
  else if 65 ≤ c ∧ c ≤ 70 then some (c.toNat - 55)
  else none

/-- The digits that a text starts with. -/
def hexPrefix : List UInt8 → List Nat
  | [] => []
  | c :: s => match hexVal c with
      | some d => d :: hexPrefix s
      | none => []

/-- `sscanf(s, "%x", &temp) == 1`, and the `int` in `temp`: the lower half of what `strtoul`
returns, which is the largest `unsigned long` for what is too long, with either sign. -/
def scanHex (s : List UInt8) : Option Int :=
  let s := s.dropWhile isspace
  let (neg, s) := match s with
    | 45 :: s => (true, s)
    | 43 :: s => (false, s)
    | s => (false, s)
  let digits := match s with
    | 48 :: 120 :: s => hexPrefix s
    | 48 :: 88 :: s => hexPrefix s
    | s => hexPrefix s
  if digits = [] then none
  else
    let v := Nat.ofDigits 16 digits.reverse
    some (toInt32 (if sizeMax ≤ v then sizeMax - 1 else if neg then sizeMax - v else v))

/-- The loop of `mac_addr_a2n`, with that many turns to go. -/
def macAddrA2nFrom : Nat → List UInt8 → Option (List UInt8)
  | 0, _ => some []
  | n + 1, arg =>
      match scanHex (arg.takeWhile (· ≠ 58)) with
      | none => none
      | some temp =>
          if temp < 0 ∨ 255 < temp then none
          else
            match arg.dropWhile (· ≠ 58) with
            | _ :: cp => (macAddrA2nFrom n cp).map (UInt8.ofNat temp.toNat :: ·)
            -- no colon is left: `break`, and enough octets or not
            | [] => if n = 0 then some [UInt8.ofNat temp.toNat] else none

/-- `mac_addr_a2n`; `none` for -1. -/
def macAddrA2n (arg : List UInt8) : Option (List UInt8) := macAddrA2nFrom ethAlen arg

/-- What `%02x` prints is not a space, a sign, a colon or an `x`. -/
theorem hexDigit_plain {d : Nat} (h : d < 16) :
    isspace (hexDigit d) = false ∧ hexDigit d ≠ 45 ∧ hexDigit d ≠ 43 ∧ hexDigit d ≠ 58 ∧
      hexDigit d ≠ 120 ∧ hexDigit d ≠ 88 := by
  have hall : ∀ d : Fin 16, isspace (hexDigit d) = false ∧ hexDigit d ≠ 45 ∧ hexDigit d ≠ 43 ∧
      hexDigit d ≠ 58 ∧ hexDigit d ≠ 120 ∧ hexDigit d ≠ 88 := by
    decide
  exact hall ⟨d, h⟩

theorem scanHex_hex02 (b : UInt8) : scanHex (hex02 b) = some (b.toNat : Int) := by
  have hall : ∀ i : Fin 256, scanHex (hex02 (UInt8.ofNat i)) = some (i.val : Int) := by
    decide +kernel
  have hb := hall ⟨b.toNat, b.toNat_lt⟩
  rwa [UInt8.ofNat_toNat] at hb

theorem colon_not_mem_hex02 (b : UInt8) : ∀ x ∈ hex02 b, x ≠ 58 := by
  have hb := b.toNat_lt
  have h₁ := hexDigit_plain (d := b.toNat / 16) (by omega)
  have h₂ := hexDigit_plain (d := b.toNat % 16) (by omega)
  intro x hx
  simp only [hex02, List.mem_cons, List.not_mem_nil, or_false] at hx
  rcases hx with rfl | rfl
  · exact h₁.2.2.2.1
  · exact h₂.2.2.2.1

theorem macText_cons_cons (b c : UInt8) (bs : List UInt8) :
    macText (b :: c :: bs) = hex02 b ++ 58 :: macText (c :: bs) := by
  simp only [macText, List.flatMap_cons, List.cons_append]

theorem macAddrA2nFrom_macText (bs : List UInt8) (h : bs ≠ []) :
    macAddrA2nFrom bs.length (macText bs) = some bs := by
  induction bs with
  | nil => exact absurd rfl h
  | cons b bs ih =>
      have hb := b.toNat_lt
      have hrange : ¬ ((b.toNat : Int) < 0 ∨ 255 < (b.toNat : Int)) := by omega
      have hpos : ∀ x ∈ hex02 b, decide (x ≠ 58) = true := fun x hx =>
        decide_eq_true (colon_not_mem_hex02 b x hx)
      cases bs with
      | nil =>
          have htake : (macText [b]).takeWhile (· ≠ 58) = hex02 b := by
            rw [macText, List.flatMap_nil, List.append_nil]
            exact List.takeWhile_eq_self_iff.mpr hpos
          have hdrop : (macText [b]).dropWhile (· ≠ 58) = [] := by
            rw [macText, List.flatMap_nil, List.append_nil]
            exact List.dropWhile_eq_nil_iff.mpr hpos
          rw [List.length_singleton, macAddrA2nFrom, htake, scanHex_hex02]
          simp only [if_neg hrange, hdrop, if_true, Int.toNat_natCast, UInt8.ofNat_toNat]
      | cons c bs =>
          have htake : (macText (b :: c :: bs)).takeWhile (· ≠ 58) = hex02 b := by
            rw [macText_cons_cons, List.takeWhile_append_of_pos hpos,
              List.takeWhile_cons_of_neg (by simp),
              List.append_nil]
          have hdrop : (macText (b :: c :: bs)).dropWhile (· ≠ 58) = 58 :: macText (c :: bs) := by
            rw [macText_cons_cons, List.dropWhile_append_of_pos hpos,
              List.dropWhile_cons_of_neg (by simp)]
          rw [List.length_cons, macAddrA2nFrom, htake, scanHex_hex02]
          simp only [if_neg hrange, hdrop]
          rw [ih (List.cons_ne_nil c bs), Int.toNat_natCast, UInt8.ofNat_toNat]
          rfl

/-- What `mac_addr_n2a` writes, `mac_addr_a2n` reads. -/
theorem macAddrA2n_macText {bs : List UInt8} (h : bs.length = ethAlen) :
    macAddrA2n (macText bs) = some bs := by
  have hne : bs ≠ [] := by
    rintro rfl
    cases h
  rw [macAddrA2n, ← h]
  exact macAddrA2nFrom_macText bs hne

/-! ## The handlers -/

def nl80211AttrBss : Nat := 47
def nl80211BssBssid : Nat := 1
def nl80211BssFrequency : Nat := 2
def nl80211BssInformationElements : Nat := 6
def nl80211BssStatus : Nat := 9
def nl80211BssMax : Nat := 20

def nl80211StaInfoRxBytes : Nat := 2
def nl80211StaInfoTxBytes : Nat := 3
def nl80211StaInfoRxPackets : Nat := 9
def nl80211StaInfoTxPackets : Nat := 10
def nl80211StaInfoRxBitrate : Nat := 14
def nl80211StaInfoBssParam : Nat := 15
def nl80211StaBssParamMax : Nat := 5

/-- `bss_policy` of `link_bss_handler`. -/
def bssPolicy : Nat → NlaPolicy
  | 2 => { type := .u32 }      -- FREQUENCY
  | 3 => { type := .u64 }      -- TSF
  | 4 => { type := .u16 }      -- BEACON_INTERVAL
  | 5 => { type := .u16 }      -- CAPABILITY
  | 7 => { type := .u32 }      -- SIGNAL_MBM
  | 8 => { type := .u8 }       -- SIGNAL_UNSPEC
  | 9 => { type := .u32 }      -- STATUS
  | _ => {}

/-- `lr`, of `bssid` the six octets that are used, and what the process has printed. -/
structure LinkState where
  bssid : List UInt8 := List.replicate ethAlen 0
  linkFound : Bool := false
  anythingFound : Bool := false
  out : List UInt8 := []
  err : List UInt8 := []

def LinkState.print (st : LinkState) (text : List UInt8) : LinkState :=
  { st with out := st.out ++ text }
def LinkState.eprint (st : LinkState) (text : List UInt8) : LinkState :=
  { st with err := st.err ++ text }

/-- `tb`, the attributes of a message by type. -/
def linkTb (mem : Mem) : Nat → Option Nat :=
  (nlaParse mem nl80211AttrMax (genlmsgAttrdata (nlmsgData 0) 0)
    (genlmsgAttrlen mem (nlmsgData 0) 0)
    none).val.tb

/-- The frequency, if it is told. -/
def freqText (mem : Mem) : Option Nat → List UInt8
  | some nla => line (ascii "\tfreq: " ++ signedDecimal (toInt32 (nlaGetU32 mem nla)))
  | none => []

/-- What `link_bss_handler` prints about a network in use, behind the line with its address. -/
def bssText (mem : Mem) (bss : Nat → Option Nat) : List UInt8 :=
  (match bss nl80211BssInformationElements with
    | some nla => printIes mem (nlaData nla) (nlaLen mem nla)
    | none => []) ++ freqText mem (bss nl80211BssFrequency)

/-- `link_bss_handler`, which always returns `NL_SKIP`; `ifIndextoname` is what stands in `dev`
after the call.  `none`: it reads through a null pointer. -/
def linkBssHandler (ifIndextoname : Nat → List UInt8) (mem : Mem) (result : LinkState) :
    Option LinkState :=
  match linkTb mem nl80211AttrBss with
  | none => some (result.eprint (line (ascii "bss info missing!")))
  | some nest =>
      let bss := (nlaParseNested mem nl80211BssMax nest bssPolicy).val
      if bss.err ≠ 0 then some (result.eprint (line (ascii "failed to parse nested attributes!")))
      else
        match bss.tb nl80211BssBssid, bss.tb nl80211BssStatus with
        | some bssid, some status =>
            match linkTb mem Wifi.nl80211AttrIfindex with
            | none => none
            | some ifindex =>
                let addr := octets mem (nlaData bssid) ethAlen
                let on := macText addr ++ (ascii " (on " ++
                  (ifIndextoname (nlaGetU32 mem ifindex) ++ ascii ")"))
                match nlaGetU32 mem status with
                | 1 =>                        -- ASSOCIATED
                    let result :=
                      result.print (line (ascii "Connected to " ++ on) ++ bssText mem bss.tb)
                    some { result with anythingFound := true, linkFound := true, bssid := addr }
                | 0 =>                        -- AUTHENTICATED
                    some (result.print (line (ascii "Authenticated with " ++ on)))
                | 2 =>                        -- IBSS_JOINED
                    let result :=
                      result.print (line (ascii "Joined IBSS " ++ on) ++ bssText mem bss.tb)
                    some { result with anythingFound := true }
                | _ => some result
        | _, _ => some result

/-- `stats_policy` of `print_link_sta`. -/
def linkStatsPolicy : Nat → NlaPolicy
  | 14 => { type := .nested }  -- RX_BITRATE
  | t => statsPolicy t

/-- `bss_policy` of `print_link_sta`. -/
def bssParamPolicy : Nat → NlaPolicy
  | 1 => { type := .flag }     -- CTS_PROT
  | 2 => { type := .flag }     -- SHORT_PREAMBLE
  | 3 => { type := .flag }     -- SHORT_SLOT_TIME
  | 4 => { type := .u8 }       -- DTIM_PERIOD
  | 5 => { type := .u16 }      -- BEACON_INTERVAL
  | _ => {}

/-- Octets and packets, when both are there. -/
def trafficText (mem : Mem) (label : List UInt8) (bytes packets : Option Nat) : List UInt8 :=
  match bytes, packets with
  | some b, some p =>
      line (label ++
        (decimal (nlaGetU32 mem b) ++ (ascii " bytes (" ++ (decimal (nlaGetU32 mem p) ++
        ascii " packets)"))))
  | _, _ => []

/-- A rate; `stack` is what lies in `buf` before. -/
def bitrateText (stack mem : Mem) (label : List UInt8) (attr : Option Nat) : Option (List UInt8) :=
  match attr with
  | none => some []
  | some nla =>
      let buf := parseBitrate mem nla 100 ⟨stack, 0, false⟩
      if buf.outside then none else some (line (label ++ cstr buf.cells 0))

/-- The flags of a network, with `delim` between them. -/
def bssFlags (binfo : Nat → Option Nat) : List UInt8 :=
  let cts := if (binfo 1).isSome then ascii "CTS-protection" else []
  let delim := if (binfo 1).isSome then ascii " " else []
  let preamble := if (binfo 2).isSome then delim ++ ascii "short-preamble" else []
  let delim := if (binfo 2).isSome then ascii " " else delim
  let slot := if (binfo 3).isSome then delim ++ ascii "short-slot-time" else []
  cts ++ (preamble ++ slot)

/-- The parameters of a network: what goes to `stdout` and what to `stderr`. -/
def bssParamText (mem : Mem) (attr : Option Nat) : Option (List UInt8 × List UInt8) :=
  match attr with
  | none => some ([], [])
  | some nla =>
      let binfo := (nlaParseNested mem nl80211StaBssParamMax nla bssParamPolicy).val
      if binfo.err ≠ 0 then some ([], line (ascii "failed to parse nested bss parameters!"))
      else
        match binfo.tb 4, binfo.tb 5 with
        | some dtim, some interval =>
            some (line [] ++ (line (ascii "\tbss flags:\t" ++ bssFlags binfo.tb) ++
              (line (ascii "\tdtim period:\t" ++ decimal (nlaGetU8 mem dtim)) ++
              line (ascii "\tbeacon int:\t" ++ decimal (nlaGetU16 mem interval)))), [])
        | _, _ => none

/-- `print_link_sta`, which always returns `NL_SKIP`.  `none`: a null pointer read through, or a
block written behind. -/
def printLinkSta (stack mem : Mem) (st : LinkState) : Option LinkState :=
  match linkTb mem nl80211AttrStaInfo with
  | none => some (st.eprint (line (ascii "sta stats missing!")))
  | some nest => do
      let sinfo := (nlaParseNested mem nl80211StaInfoMax nest linkStatsPolicy).val
      if sinfo.err ≠ 0 then return st.eprint (line (ascii "failed to parse nested attributes!"))
      let signal := match sinfo.tb nl80211StaInfoSignal with
        | some nla => line (ascii "\tsignal: " ++ (chainSignal mem nla ++ ascii " dBm"))
        | none => []
      let rx ← bitrateText stack mem (ascii "\trx bitrate: ") (sinfo.tb nl80211StaInfoRxBitrate)
      let tx ← bitrateText stack mem (ascii "\ttx bitrate: ") (sinfo.tb nl80211StaInfoTxBitrate)
      let param ← bssParamText mem (sinfo.tb nl80211StaInfoBssParam)
      let traffic :=
        trafficText mem (ascii "\tRX: ") (sinfo.tb nl80211StaInfoRxBytes)
          (sinfo.tb nl80211StaInfoRxPackets) ++
        trafficText mem (ascii "\tTX: ") (sinfo.tb nl80211StaInfoTxBytes)
          (sinfo.tb nl80211StaInfoTxPackets)
      return (st.print (traffic ++ (signal ++ (rx ++ (tx ++ param.1))))).eprint param.2

/-! ## The command -/

/-- What the process has beside its socket: the interface that the command is for, the names of the
interfaces, and what lies on its stack where a rate is put together. -/
structure LinkEnv extends Env where
  devidx : Nat
  ifIndextoname : Nat → List UInt8
  stack : Mem
  stack_length : stack.length = 100

/-- A handler that is registered for a command, and returns `NL_SKIP`. -/
def registered (handler : Mem → LinkState → Option LinkState) (mem : Mem) (st : LinkState) :
    Option (Int × LinkState) :=
  (handler mem st).map fun st => (nlSkip, st)

/-- `HIDDEN(link, get_bss, ...)` with `handle_scan_for_link`. -/
def getBss (env : LinkEnv) : Cmd LinkState where
  idby := .netdev env.devidx
  cmd := 32                    -- GET_SCAN
  flags := 0x300               -- NLM_F_DUMP
  attrs := .nil
  registered := registered (linkBssHandler env.ifIndextoname)

/-- `HIDDEN(link, get_sta, ...)` with `handle_link_sta`, its address read already. -/
def getSta (env : LinkEnv) (macAddr : List UInt8) : Cmd LinkState where
  idby := .netdev env.devidx
  cmd := 17                    -- GET_STATION
  flags := 0
  attrs := .put 6 macAddr .nil
  registered := registered (printLinkSta env.stack)

/-- `handle_link` behind the dump. -/
def linkStation (env : LinkEnv) : Run LinkState Int := do
  let lr := (← get).user
  if ¬ lr.linkFound then
    if ¬ lr.anythingFound then
      modify fun st => { st with user := lr.print (line (ascii "Not connected.")) }
    return 0
  match macAddrA2n (macText lr.bssid) with
  | none =>
      modify fun st => { st with user := lr.eprint (line (ascii "invalid mac address")) }
      return 2
  | some macAddr => handleCmd env.toEnv (getSta env macAddr)

/-- `handle_link`. -/
def handleLink (env : LinkEnv) : Run LinkState Int := do
  let err ← handleCmd env.toEnv (getBss env)
  if err ≠ 0 then return err
  linkStation env

/-! ## What a dump comes to -/

/-- What a message says about a network: the status, the address, the index of the interface, and
what is printed about the network when it is in use. -/
structure BssReport where
  status : Nat
  addr : List UInt8
  ifindex : Option Nat
  text : List UInt8
  deriving DecidableEq

/-- The report of a message, none if `link_bss_handler` does not get that far. -/
def bssReport (mem : Mem) : Option BssReport := do
  let nest ← topAttr mem nl80211AttrBss
  let bssid ← nestAttr mem nl80211BssMax bssPolicy nest nl80211BssBssid
  let status ← nestAttr mem nl80211BssMax bssPolicy nest nl80211BssStatus
  return ⟨nlaGetU32 mem status, octets mem (nlaData bssid) ethAlen,
    (topAttr mem Wifi.nl80211AttrIfindex).map (nlaGetU32 mem),
    bssText mem (nestAttr mem nl80211BssMax bssPolicy nest)⟩

/-- What is printed for a report. -/
def BssReport.print (r : BssReport) (dev : List UInt8) : List UInt8 :=
  let on := macText r.addr ++ (ascii " (on " ++ (dev ++ ascii ")"))
  match r.status with
  | 1 => line (ascii "Connected to " ++ on) ++ r.text
  | 0 => line (ascii "Authenticated with " ++ on)
  | 2 => line (ascii "Joined IBSS " ++ on) ++ r.text
  | _ => []

/-- The address of the network, if the interface is associated with it. -/
def associated (mem : Mem) : Option (List UInt8) :=
  (bssReport mem).bind fun r => if r.status = 1 then some r.addr else none

/-- The interface is associated with the network, or has joined it. -/
def inUse (mem : Mem) : Bool := (bssReport mem).any fun r => r.status = 1 || r.status = 2

/-- What goes to `stdout`. -/
def said (ifIndextoname : Nat → List UInt8) (mem : Mem) : List UInt8 :=
  match bssReport mem with
  | some r => r.print (ifIndextoname (r.ifindex.getD 0))
  | none => []

/-- What goes to `stderr`. -/
def complaint (mem : Mem) : List UInt8 :=
  match topAttr mem nl80211AttrBss with
  | none => line (ascii "bss info missing!")
  | some nest =>
      if NestValid mem nl80211BssMax bssPolicy nest then []
      else line (ascii "failed to parse nested attributes!")

/-- The kernel says on which interface it has seen the network. -/
def Located (mem : Mem) : Prop := ∀ r, bssReport mem = some r → r.ifindex ≠ none

section Dump

variable {ifIndextoname : Nat → List UInt8} {mem : Mem}

theorem linkTb_eq {t : Nat} (h0 : 0 < t) (hmax : t ≤ nl80211AttrMax) :
    linkTb mem t = topAttr mem t :=
  topTable mem h0 hmax

/-- A message without a report only complains. -/
theorem heard_none (h : bssReport mem = none) (st : LinkState) :
    (⟨(associated mem).getD st.bssid, st.linkFound || (associated mem).isSome,
        st.anythingFound || inUse mem, st.out ++ said ifIndextoname mem, st.err ++ complaint mem⟩ :
      LinkState) = st.eprint (complaint mem) := by
  have hsaid : said ifIndextoname mem = [] := by
    rw [said, h]
  have hassoc : associated mem = none := by
    rw [associated, h, Option.bind_none]
  have huse : inUse mem = false := by
    rw [inUse, h]
    rfl
  rw [hsaid, hassoc, huse, List.append_nil]
  simp only [Option.getD_none, Option.isSome_none, Bool.or_false]
  rfl

/-- What a message does, if it says where it belongs. -/
theorem linkBssHandler_eq (h : Located mem) (st : LinkState) :
    linkBssHandler ifIndextoname mem st = some
      ⟨(associated mem).getD st.bssid, st.linkFound || (associated mem).isSome,
        st.anythingFound || inUse mem, st.out ++ said ifIndextoname mem,
          st.err ++ complaint mem⟩ := by
  unfold linkBssHandler
  rw [linkTb_eq (by decide) (by decide), linkTb_eq (by decide) (by decide)]
  cases hnest : topAttr mem nl80211AttrBss with
  | none =>
      have hreport : bssReport mem = none := by
        rw [bssReport, hnest]
        rfl
      rw [heard_none hreport, complaint, hnest]
  | some nest =>
      simp only
      by_cases hv : NestValid mem nl80211BssMax bssPolicy nest
      · have herr : (nlaParseNested mem nl80211BssMax nest bssPolicy).val.err = 0 := by
          by_contra hne
          exact (nlaParseNested_err_iff.mp hne) hv
        have hcomplaint : complaint mem = [] := by
          rw [complaint, hnest]
          exact if_pos hv
        have htb {t : Nat} (h0 : 0 < t) (hmax : t ≤ nl80211BssMax) :
            (nlaParseNested mem nl80211BssMax nest bssPolicy).val.tb t =
              nestAttr mem nl80211BssMax bssPolicy nest t :=
          nlaParseNested_tb hv h0 hmax
        have htext : bssText mem (nlaParseNested mem nl80211BssMax nest bssPolicy).val.tb =
            bssText mem (nestAttr mem nl80211BssMax bssPolicy nest) := by
          unfold bssText
          rw [htb (by decide) (by decide), htb (by decide) (by decide)]
        rw [herr, if_neg (by decide), htb (by decide) (by decide), htb (by decide) (by decide),
          htext]
        cases hbssid : nestAttr mem nl80211BssMax bssPolicy nest nl80211BssBssid with
        | none =>
            have hreport : bssReport mem = none := by
              simp only [bssReport, hnest, hbssid, Option.bind_eq_bind, Option.bind_some,
                Option.bind_none]
            rw [heard_none hreport, hcomplaint]
            simp only [LinkState.eprint, List.append_nil]
        | some bssid =>
            cases hstatus : nestAttr mem nl80211BssMax bssPolicy nest nl80211BssStatus with
            | none =>
                have hreport : bssReport mem = none := by
                  simp only [bssReport, hnest, hbssid, hstatus, Option.bind_eq_bind,
                    Option.bind_some,
                    Option.bind_none]
                rw [heard_none hreport, hcomplaint]
                simp only [LinkState.eprint, List.append_nil]
            | some status =>
                have hreport :
                    bssReport mem = some ⟨nlaGetU32 mem status, octets mem (nlaData bssid) ethAlen,
                    (topAttr mem Wifi.nl80211AttrIfindex).map (nlaGetU32 mem),
                    bssText mem (nestAttr mem nl80211BssMax bssPolicy nest)⟩ := by
                  simp only [bssReport, hnest, hbssid, hstatus, Option.bind_eq_bind,
                    Option.bind_some]
                  rfl
                cases hifindex : topAttr mem Wifi.nl80211AttrIfindex with
                | none =>
                    exact absurd (by rw [hifindex]; rfl) (h _ hreport)
                | some ifindex =>
                    rw [hifindex] at hreport
                    rw [hcomplaint, associated, inUse, said, hreport]
                    simp only [Option.map_some, Option.bind_some, Option.any_some, Option.getD_some,
                      BssReport.print, LinkState.print, List.append_nil]
                    generalize nlaGetU32 mem status = code
                    match code with
                    | 0 => simp
                    | 1 => simp
                    | 2 => simp
                    | code + 3 => simp
      · have hreport : bssReport mem = none := by
          simp only [bssReport, hnest, Option.bind_eq_bind, Option.bind_some,
            nestAttr_of_not_valid hv, Option.bind_none]
        have herr : (nlaParseNested mem nl80211BssMax nest bssPolicy).val.err ≠ 0 :=
          nlaParseNested_err_iff.mpr hv
        rw [if_pos herr, heard_none hreport, complaint, hnest]
        simp only [if_neg hv]

/-- The run after a dump. -/
def LinkState.after (ifIndextoname : Nat → List UInt8) (st : LinkState) (mems : List Mem) :
    LinkState where
  bssid := lastReport associated st.bssid mems
  linkFound := st.linkFound || mems.any fun mem => (associated mem).isSome
  anythingFound := st.anythingFound || mems.any inUse
  out := st.out ++ mems.flatMap (said ifIndextoname)
  err := st.err ++ mems.flatMap complaint

theorem getBss_handed_cons (env : LinkEnv) (m : NetMsg) (ms : List NetMsg) (st : LinkState) :
    (getBss env).handed (m :: ms) st =
      (linkBssHandler env.ifIndextoname m.image st).bind ((getBss env).handed ms) := by
  show ((linkBssHandler env.ifIndextoname m.image st).map _).bind _ = _
  rw [Option.bind_map]
  rfl

theorem handed_dump (env : LinkEnv) (ms : List NetMsg) (h : ∀ m ∈ ms, Located m.image)
    (st : LinkState) :
    (getBss env).handed ms st = some (st.after env.ifIndextoname (ms.map NetMsg.image)) := by
  induction ms generalizing st with
  | nil => simp [Cmd.handed, LinkState.after]
  | cons m ms ih =>
      obtain ⟨hm, hms⟩ := List.forall_mem_cons.mp h
      rw [getBss_handed_cons, linkBssHandler_eq hm, Option.bind_some, ih hms]
      simp only [LinkState.after, List.map_cons, lastReport_cons, List.any_cons, List.flatMap_cons,
        Bool.or_assoc, List.append_assoc]

/-- The network that the dump leaves the interface associated with. -/
def lastAssociated (mems : List Mem) : Option (List UInt8) := (mems.filterMap associated).getLast?

theorem any_associated (mems : List Mem) :
    (mems.any fun mem => (associated mem).isSome) = (lastAssociated mems).isSome := by
  unfold lastAssociated
  induction mems with
  | nil => rfl
  | cons mem mems ih =>
      rw [List.any_cons, ih]
      cases hmem : associated mem with
      | none => rw [List.filterMap_cons_none hmem, Option.isSome_none, Bool.false_or]
      | some addr =>
          rw [List.filterMap_cons_some hmem, List.getLast?_cons, Option.isSome_some, Bool.true_or,
            Option.isSome_some]

/-- Where a report comes from. -/
theorem bssReport_spec {r : BssReport} (h : bssReport mem = some r) :
    r.addr.length = ethAlen ∧ ∃ nest, topAttr mem nl80211AttrBss = some nest ∧
      r.text = bssText mem (nestAttr mem nl80211BssMax bssPolicy nest) := by
  obtain ⟨nest, hnest, h⟩ := Option.bind_eq_some_iff.mp h
  obtain ⟨bssid, -, h⟩ := Option.bind_eq_some_iff.mp h
  obtain ⟨status, -, h⟩ := Option.bind_eq_some_iff.mp h
  obtain rfl := Option.some.inj h
  exact ⟨octets_length _ _ _, nest, hnest, rfl⟩

/-- The report of a network that the interface is associated with. -/
theorem report_of_associated {addr : List UInt8} (h : associated mem = some addr) :
    ∃ r, bssReport mem = some r ∧ r.status = 1 ∧ r.addr = addr := by
  obtain ⟨r, hr, hstatus⟩ := Option.bind_eq_some_iff.mp h
  split at hstatus
  · exact ⟨r, hr, ‹_›, Option.some.inj hstatus⟩
  · cases hstatus

end Dump

/-! ## What the messages about the station come to -/

/-- An attribute of `NL80211_ATTR_STA_INFO`, as `print_link_sta` finds it. -/
def staAttr (mem : Mem) (t : Nat) : Option Nat :=
  (topAttr mem nl80211AttrStaInfo).bind fun nest => nestAttr mem nl80211StaInfoMax
    linkStatsPolicy nest t

/-- A rate that fits its block. -/
def RateFits (mem : Mem) (attr : Option Nat) : Prop :=
  ∀ nla ∈ attr, (rateTexts mem nla).dropLast.flatten.length ≤ 100

/-- Parameters of a network with `DTIM_PERIOD` and `BEACON_INTERVAL` among them. -/
def ParamWhole (mem : Mem) (attr : Option Nat) : Prop :=
  ∀ nla ∈ attr, NestValid mem nl80211StaBssParamMax bssParamPolicy nla →
    (nestAttr mem nl80211StaBssParamMax bssParamPolicy nla 4).isSome ∧
      (nestAttr mem nl80211StaBssParamMax bssParamPolicy nla 5).isSome

/-- A message that `print_link_sta` gets through. -/
def Complete (mem : Mem) : Prop :=
  RateFits mem (staAttr mem nl80211StaInfoRxBitrate) ∧
    RateFits mem (staAttr mem nl80211StaInfoTxBitrate) ∧
    ParamWhole mem (staAttr mem nl80211StaInfoBssParam)

section Station

variable {stack mem : Mem}

theorem bitrateText_isSome (hstack : stack.length = 100) (label : List UInt8) (attr : Option Nat) :
    (bitrateText stack mem label attr).isSome ↔ RateFits mem attr := by
  unfold bitrateText RateFits
  cases attr with
  | none => simp
  | some nla =>
      simp only [Option.mem_some_iff, forall_eq']
      rw [← Nat.not_lt, ← parseBitrate_outside hstack]
      cases (parseBitrate mem nla 100 ⟨stack, 0, false⟩).outside <;> simp

theorem bssParamText_isSome (attr : Option Nat) :
    (bssParamText mem attr).isSome ↔ ParamWhole mem attr := by
  unfold bssParamText ParamWhole
  cases attr with
  | none => simp
  | some nla =>
      simp only [Option.mem_some_iff, forall_eq']
      by_cases hv : NestValid mem nl80211StaBssParamMax bssParamPolicy nla
      · have herr : (nlaParseNested mem nl80211StaBssParamMax nla bssParamPolicy).val.err = 0 := by
          by_contra hne
          exact (nlaParseNested_err_iff.mp hne) hv
        rw [herr, if_neg (by decide), nlaParseNested_tb hv (by decide) (by decide),
          nlaParseNested_tb hv (by decide) (by decide)]
        cases nestAttr mem nl80211StaBssParamMax bssParamPolicy nla 4 with
        | none => simp [hv]
        | some dtim => cases nestAttr mem nl80211StaBssParamMax bssParamPolicy nla 5 <;> simp [hv]
      · rw [if_pos (nlaParseNested_err_iff.mpr hv)]
        simp [hv]

/-- Where `print_link_sta` ends. -/
theorem printLinkSta_isSome (hstack : stack.length = 100) (st : LinkState) :
    (printLinkSta stack mem st).isSome ↔ Complete mem := by
  have habsent (h : ∀ t, staAttr mem t = none) : Complete mem := by
    refine ⟨?_, ?_, ?_⟩
    all_goals
      rw [h]
      exact fun nla hnla => absurd hnla (Option.not_mem_none nla)
  unfold printLinkSta
  rw [linkTb_eq (by decide) (by decide)]
  cases hnest : topAttr mem nl80211AttrStaInfo with
  | none =>
      refine iff_of_true rfl (habsent fun t => ?_)
      rw [staAttr, hnest, Option.bind_none]
  | some nest =>
      have hsta (t : Nat) :
          staAttr mem t = nestAttr mem nl80211StaInfoMax linkStatsPolicy nest t := by
        rw [staAttr, hnest, Option.bind_some]
      simp only
      by_cases hv : NestValid mem nl80211StaInfoMax linkStatsPolicy nest
      · have herr : (nlaParseNested mem nl80211StaInfoMax nest linkStatsPolicy).val.err = 0 := by
          by_contra hne
          exact (nlaParseNested_err_iff.mp hne) hv
        have htb {t : Nat} (h0 : 0 < t) (hmax : t ≤ nl80211StaInfoMax) :
            (nlaParseNested mem nl80211StaInfoMax nest linkStatsPolicy).val.tb t =
              staAttr mem t := by
          rw [hsta, nlaParseNested_tb hv h0 hmax]
        rw [herr, if_neg (by decide)]
        unfold Complete
        rw [← bitrateText_isSome hstack (ascii "\trx bitrate: "),
          ← bitrateText_isSome hstack (ascii "\ttx bitrate: "), ← bssParamText_isSome,
          ← htb (by decide) (by decide), ← htb (by decide) (by decide),
            ← htb (by decide) (by decide)]
        cases bitrateText stack mem (ascii "\trx bitrate: ")
            ((nlaParseNested mem nl80211StaInfoMax nest linkStatsPolicy).val.tb
              nl80211StaInfoRxBitrate) with
        | none => simp
        | some rx =>
            cases bitrateText stack mem (ascii "\ttx bitrate: ")
                ((nlaParseNested mem nl80211StaInfoMax nest linkStatsPolicy).val.tb
                  nl80211StaInfoTxBitrate) with
            | none => simp
            | some tx =>
                cases bssParamText mem
                  ((nlaParseNested mem nl80211StaInfoMax nest linkStatsPolicy).val.tb
                    nl80211StaInfoBssParam) <;> simp
      · rw [if_pos (nlaParseNested_err_iff.mpr hv)]
        refine iff_of_true rfl (habsent fun t => ?_)
        rw [hsta, nestAttr_of_not_valid hv]

theorem getSta_handed_cons (env : LinkEnv) (addr : List UInt8) (m : NetMsg) (ms : List NetMsg)
    (st : LinkState) :
    (getSta env addr).handed (m :: ms) st =
      (printLinkSta env.stack m.image st).bind ((getSta env addr).handed ms) := by
  show ((printLinkSta env.stack m.image st).map _).bind _ = _
  rw [Option.bind_map]
  rfl

/-- And so with all of them. -/
theorem handed_sta_isSome (env : LinkEnv) (addr : List UInt8) (ms : List NetMsg) (st : LinkState) :
    ((getSta env addr).handed ms st).isSome ↔ ∀ m ∈ ms, Complete m.image := by
  induction ms generalizing st with
  | nil => simp [Cmd.handed]
  | cons m ms ih =>
      have hfirst := @printLinkSta_isSome _ m.image env.stack_length st
      rw [getSta_handed_cons, List.forall_mem_cons, ← hfirst]
      cases printLinkSta env.stack m.image st with
      | none => simp
      | some st₁ => simp [ih]

end Station

/-! ## The two requests -/

/-- Both commands fit in a block of 68 octets. -/
theorem getBss_room (env : LinkEnv) (h : 68 ≤ env.block.length) : (getBss env).Room env.toEnv where
  goes := by
    intro mem st r hr
    obtain ⟨st', -, rfl⟩ := Option.map_eq_some_iff.mp hr
    exact .inr rfl
  fits := by
    refine ⟨?_, trivial⟩
    show nlmsgHdrlen + genlHdrlen + align4 (nlaHdrlen + 4) + (nlmsgHdrlen + genlHdrlen) ≤ _
    exact Nat.le_trans (by decide) h

theorem getSta_room (env : LinkEnv) (h : 68 ≤ env.block.length) {addr : List UInt8}
    (haddr : addr.length = ethAlen) : (getSta env addr).Room env.toEnv where
  goes := by
    intro mem st r hr
    obtain ⟨st', -, rfl⟩ := Option.map_eq_some_iff.mp hr
    exact .inr rfl
  fits := by
    refine ⟨?_, ?_, trivial⟩
    · show nlmsgHdrlen + genlHdrlen + align4 (nlaHdrlen + 4) + (nlmsgHdrlen + genlHdrlen) ≤ _
      exact Nat.le_trans (by decide) h
    · show NlMsg.NlaFits _ (nlmsgHdrlen + genlHdrlen + align4 (nlaHdrlen + 4)) addr.length
      rw [haddr]
      exact Nat.le_trans (by decide) h

/-- The data messages of the dump, as the handler sees them. -/
def scanned (env : LinkEnv) (reply : (req : Mem) → Answer (nlmsgSeq req 0)) (seq : UInt32) :
    List Mem :=
  ((reply ((getBss env).request env.toEnv seq)).delivered env.page).map NetMsg.image

/-- The answer about the station with the address `addr`. -/
def stationAnswer (env : LinkEnv) (reply : (req : Mem) → Answer (nlmsgSeq req 0)) (seq : UInt32)
    (addr : List UInt8) : Answer (nlmsgSeq ((getSta env addr).request env.toEnv (seq + 1)) 0) :=
  reply ((getSta env addr).request env.toEnv (seq + 1))

/-- What is said about it. -/
def told (env : LinkEnv) (reply : (req : Mem) → Answer (nlmsgSeq req 0)) (seq : UInt32)
    (addr : List UInt8) : List Mem :=
  ((stationAnswer env reply seq addr).delivered env.page).map NetMsg.image

/-- What comes of a dump that ended well; nothing if `print_link_sta` does not get through a
message. -/
def linkServed (env : LinkEnv) (reply : (req : Mem) → Answer (nlmsgSeq req 0)) (seq : UInt32)
    (st : LinkState) : Option (Int × UInt32 × LinkState) :=
  match lastAssociated (scanned env reply seq) with
  | some addr =>
      ((getSta env addr).handed ((stationAnswer env reply seq addr).delivered env.page) st).map
        fun st =>
        (verdict (stationAnswer env reply seq addr).terminator, seq + 1 + 1, st)
  | none =>
      some (0, seq + 1,
        if (scanned env reply seq).any inUse then st else st.print (line (ascii "Not connected.")))

/-- A run that comes to `r`, or breaks off where there is nothing it could come to. -/
def ComesTo (run : EStateM.Result Halt (RecvState LinkState) Int) :
    Option (Int × UInt32 × LinkState) → Prop
  | some r => run = .ok r.1 (inStep r.2.1 [] r.2.2)
  | none => ∃ st, run = .error .undefined st

/-- The process and the kernel: every request is answered, and there is memory for the messages. -/
structure LinkServes (env : LinkEnv) (reply : (req : Mem) → Answer (nlmsgSeq req 0)) : Prop extends
    Serves env.toEnv reply where
  memory : env.memory = true
  room : 68 ≤ env.block.length
  block_lt : env.block.length < 65536

section Served

variable {env : LinkEnv} {reply : (req : Mem) → Answer (nlmsgSeq req 0)}

/-- The first request. -/
theorem handleLink_dump (h : LinkServes env reply) (seq : UInt32)
    (hlocated : ∀ mem ∈ scanned env reply seq, Located mem) :
    let st := LinkState.after env.ifIndextoname {} (scanned env reply seq)
    let code := verdict (reply ((getBss env).request env.toEnv seq)).terminator
    handleLink env (inStep seq [] {}) =
      if code ≠ 0 then .ok code (inStep (seq + 1) [] st)
        else linkStation env (inStep (seq + 1) [] st) := by
  intro st code
  have hfirst := handleCmd_served h.toServes h.memory h.block_lt (getBss_room env h.room) seq {}
  have hdump :
      (getBss env).handed ((reply ((getBss env).request env.toEnv seq)).delivered env.page) {} =
        some st := handed_dump env _ (fun m hm => hlocated _ (List.mem_map_of_mem hm)) {}
  simp only [hdump] at hfirst
  unfold handleLink
  simp only [bind, EStateM.bind, hfirst]
  by_cases hcode : code = 0
  · rw [if_neg (not_not_intro hcode), if_neg (not_not_intro hcode)]
  · rw [if_pos hcode, if_pos hcode]
    rfl

/-- What follows. -/
theorem linkStation_served (h : LinkServes env reply) (seq : UInt32) :
    let st := LinkState.after env.ifIndextoname {} (scanned env reply seq)
    ComesTo (linkStation env (inStep (seq + 1) [] st)) (linkServed env reply seq st) := by
  intro st
  have hfound : st.linkFound = (lastAssociated (scanned env reply seq)).isSome := any_associated _
  have hany : st.anythingFound = (scanned env reply seq).any inUse := Bool.false_or _
  have hstart : linkStation env (inStep (seq + 1) [] st) =
      (if ¬ st.linkFound then
        (if ¬ st.anythingFound then
          EStateM.Result.ok 0 (inStep (seq + 1) [] (st.print (line (ascii "Not connected."))))
        else .ok 0 (inStep (seq + 1) [] st))
      else match macAddrA2n (macText st.bssid) with
        | none => .ok 2 (inStep (seq + 1) [] (st.eprint (line (ascii "invalid mac address"))))
        | some macAddr => handleCmd env.toEnv (getSta env macAddr) (inStep (seq + 1) [] st)) := by
    unfold linkStation
    simp only [bind, EStateM.bind, get, getThe, MonadStateOf.get, EStateM.get]
    split_ifs
    · cases macAddrA2n (macText st.bssid) <;> rfl
    · rfl
    · rfl
  rw [hstart]
  unfold linkServed
  cases hlast : lastAssociated (scanned env reply seq) with
  | none =>
      rw [hlast, Option.isSome_none] at hfound
      rw [hfound, if_pos Bool.false_ne_true, hany]
      cases (scanned env reply seq).any inUse with
      | true => rfl
      | false => rfl
  | some addr =>
      rw [hlast, Option.isSome_some] at hfound
      have hbssid : st.bssid = addr := by
        show (lastAssociated (scanned env reply seq)).getD _ = addr
        rw [hlast, Option.getD_some]
      have hlen : addr.length = ethAlen := by
        obtain ⟨mem, -, hmem⟩ := List.mem_filterMap.mp (List.mem_of_getLast? hlast)
        obtain ⟨r, hr, -, rfl⟩ := report_of_associated hmem
        exact (bssReport_spec hr).1
      rw [hfound, if_neg (not_not_intro rfl), hbssid, macAddrA2n_macText hlen]
      have hsecond :=
        handleCmd_served h.toServes h.memory h.block_lt (getSta_room env h.room hlen) (seq + 1) st
      simp only at hsecond ⊢
      unfold stationAnswer
      cases hhanded : (getSta env addr).handed
          ((reply ((getSta env addr).request env.toEnv (seq + 1))).delivered env.page) st with
      | none =>
          rw [hhanded] at hsecond
          exact hsecond
      | some st' =>
          rw [hhanded] at hsecond
          exact hsecond

/-- What a dump that ended well comes to, unless a message about the station is not complete. -/
theorem linkServed_eq_none (seq : UInt32) (st : LinkState) :
    linkServed env reply seq st = none ↔
      ∃ addr, lastAssociated (scanned env reply seq) = some addr ∧
        ∃ mem ∈ told env reply seq addr, ¬ Complete mem := by
  unfold linkServed
  cases lastAssociated (scanned env reply seq) with
  | none => simp
  | some addr =>
      have hall :=
        handed_sta_isSome env addr ((stationAnswer env reply seq addr).delivered env.page) st
      rw [Option.map_eq_none_iff, ← Option.not_isSome_iff_eq_none, hall]
      simp [told]

end Served

/-! An interface within reach of the network `cabin`, which it is associated with if `joined`. -/

/-- A dump of one message. -/
def tell (payload : { bs : Mem // bs.length < 1000 }) (seq : UInt32) : NetMsg :=
  .build 28 nlmFMulti seq payload.1 [] (by
    have hpayload := payload.2
    unfold nlmsgHdrlen
    omega)

theorem tell_length (payload : { bs : Mem // bs.length < 1000 }) (seq : UInt32) :
    (packOctets ([tell payload seq] ++ [.done seq])).length < 2000 := by
  have hpayload := payload.2
  have hmsg : (tell payload seq).span < 1020 := by
    show align4 (buildOctets _ _ _ _).length < 1020
    have hlt := align4_lt (buildOctets 28 nlmFMulti seq payload.1).length
    rw [buildOctets_length] at hlt ⊢
    unfold nlmsgHdrlen at *
    omega
  have hdone : (NetMsg.done seq).span = 20 := by
    show align4 (buildOctets _ _ _ _).length = 20
    rw [buildOctets_length]
    decide
  rw [List.singleton_append, packOctets_cons_length, packOctets_cons_length, hdone]
  show _ + (20 + 0) < 2000
  omega

def cabinScan (joined : Bool) : { bs : Mem // bs.length < 1000 } :=
  ⟨genlPayload 34 [nlaPut 3 (le32 3),
    nlaPut 47 (nlaPut 1 [2, 0, 0, 0, 0, 1] ++ (nlaPut 2 (le32 2412) ++
    (nlaPut 6 ([0, 5] ++ ascii "cabin") ++ if joined then nlaPut 9 (le32 1) else [])))],
    by cases joined <;> decide +kernel⟩

def cabinStation : { bs : Mem // bs.length < 1000 } :=
  ⟨genlPayload 19 [nlaPut 3 (le32 3), nlaPut 21 (nlaPut 7 [206])], by decide +kernel⟩

/-- The answer to `NL80211_CMD_GET_SCAN`, and the one to `NL80211_CMD_GET_STATION`. -/
def cabinReply (joined : Bool) (req : Mem) : Answer (nlmsgSeq req 0) :=
  let payload := if rd8 req 16 = 32 then cabinScan joined else cabinStation
  .dump [tell payload (nlmsgSeq req 0)] (Nat.lt_trans (tell_length _ _) (by decide)) (by
    intro m hm
    obtain rfl := List.mem_singleton.mp hm
    have htype : (tell payload (nlmsgSeq req 0)).type = 28 := NetMsg.build_type (by decide) ..
    refine ⟨NetMsg.build_seq .., ?_⟩
    unfold NetMsg.IsData
    rw [htype]
    decide)

def cabinEnv (joined : Bool) : LinkEnv where
  pid := 7
  block := List.replicate 128 170
  send := fun req => .ok (incoming (cabinReply joined req).parcels)
  page := 16384
  nl80211Id := 28
  headers := by
    rw [List.length_replicate]
    decide
  devidx := 3
  ifIndextoname := fun _ => ascii "wlan0"
  stack := List.replicate 100 170
  stack_length := List.length_replicate

theorem cabinServes (joined : Bool) : LinkServes (cabinEnv joined) (cabinReply joined) where
  send := fun _ => rfl
  closes := fun req => .inl (NetMsg.build_type (show nlmsgDone < 65536 by decide) nlmFMulti _
    (le32 0) [] (by decide))
  fits := fun req => Nat.le_of_lt (Nat.lt_trans (tell_length _ _) (show 2000 < 16384 by decide))
  memory := rfl
  room := by simp [cabinEnv]
  block_lt := by simp [cabinEnv]

theorem scanned_cabin (joined : Bool) :
    scanned (cabinEnv joined) (cabinReply joined) 5 = [(tell (cabinScan joined) 5).image] := by
  cases joined <;> decide +kernel

/-- Without `NL80211_BSS_STATUS` there is no report. -/
theorem bssReport_cabin (joined : Bool) : bssReport (tell (cabinScan joined) 5).image =
    if joined then some ⟨1, [2, 0, 0, 0, 0, 1], some 3, ascii "\tSSID: cabin\n\tfreq: 2412\n"⟩
      else none := by
  cases joined <;> decide +kernel

theorem located_cabin (joined : Bool) :
    ∀ mem ∈ scanned (cabinEnv joined) (cabinReply joined) 5, Located mem := by
  intro mem hmem r hr
  rw [scanned_cabin] at hmem
  obtain rfl := List.mem_singleton.mp hmem
  rw [bssReport_cabin] at hr
  cases joined with
  | false => cases hr
  | true =>
      obtain rfl := Option.some.inj hr
      exact Option.some_ne_none 3

theorem verdict_cabin (joined : Bool) :
    verdict (cabinReply joined
      ((getBss (cabinEnv joined)).request (cabinEnv joined).toEnv 5)).terminator = 0 := by
  cases joined <;> decide +kernel

/-- What is printed about the link. -/
def cabinText : List UInt8 :=
  line (ascii "Connected to 02:00:00:00:00:01 (on wlan0)") ++ line (ascii "\tSSID: cabin") ++
    line (ascii "\tfreq: 2412") ++ line (ascii "\tsignal: -50 dBm")

/-- What comes of both requests. -/
def cabinLink (joined : Bool) : Option (Int × UInt32 × LinkState) :=
  linkServed (cabinEnv joined) (cabinReply joined) 5
    (LinkState.after (cabinEnv joined).ifIndextoname {}
      (scanned (cabinEnv joined) (cabinReply joined) 5))

theorem cabinLink_joined : ∃ st, cabinLink true = some (0, 7, st) ∧ st.out = cabinText := by
  generalize hlink : cabinLink true = l
  have hresult : (l.map fun r => (r.1, r.2.1, r.2.2.out)) = some (0, 7, cabinText) := by
    rw [← hlink]
    decide +kernel
  obtain ⟨⟨code, seq, st⟩, rfl, hr⟩ := Option.map_eq_some_iff.mp hresult
  simp only [Prod.mk.injEq] at hr
  obtain ⟨rfl, rfl, hout⟩ := hr
  exact ⟨st, rfl, hout⟩

end Nl80211.Iw
