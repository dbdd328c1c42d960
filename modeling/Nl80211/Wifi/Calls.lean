/-
# Nl80211.Wifi.Calls — the public calls of a `Wifi` object.

Apart from construction and destruction no public call goes near netlink: some read the record, some
do nothing, and `ConnectAp(ap, pwd)` and `GetSsid` hand command lines to a shell.  The lines are put
together by `sprintf` in a buffer on the stack; one that does not fit makes the behaviour undefined.
What the shell command of `GetSsid` prints is given by the environment.
-/
import Nl80211.Lib.Triple
import Nl80211.Wifi.Object

namespace Nl80211.Wifi

open Lib Lib.Bytes

/-! ## Command lines -/

/-- `c_str()`, as `%s` prints it: a string ends at its first zero octet. -/
def cText (s : List UInt8) : List UInt8 := cstr s 0

/-- The line `ConnectAp` writes the configuration with. -/
def passphraseCmd (ap pwd : List UInt8) : List UInt8 :=
  ascii "wpa_passphrase " ++ cText ap ++ ascii " " ++ cText pwd ++
    ascii " > /etc/wpa_supplicant.conf"

/-- The line `ConnectAp` starts the supplicant with. -/
def supplicantCmd (dev : List UInt8) : List UInt8 :=
  ascii "wpa_supplicant -B -i " ++ cText dev ++ ascii " -c /etc/wpa_supplicant.conf"

/-- The line `ConnectAp` asks for an address with. -/
def dhclientCmd (dev : List UInt8) : List UInt8 := ascii "dhclient " ++ cText dev

/-- The line `GetSsid` falls back on. -/
def linkCmd (dev : List UInt8) : List UInt8 :=
  ascii "iw " ++ cText dev ++ ascii " link | grep SSID"

/-- `sprintf` of a line into a buffer of `size` octets: the line and its terminator have to fit. -/
def sprintfCmd (size : Nat) (line : List UInt8) : Act (List UInt8) :=
  if line.length < size then return line else throw .undefined

/-- `system`, or `popen`: hand a line to the shell. -/
def system (line : List UInt8) : Act Unit :=
  modify fun w => { w with commands := w.commands ++ [line] }

/-- `Wifi::ConnectAp(ap, pwd)`. -/
def connectApTo (ap pwd : List UInt8) : Act Int := do
  let dev := (← get).dev
  system (← sprintfCmd 128 (passphraseCmd ap pwd))
  system (← sprintfCmd 128 (supplicantCmd dev))
  system (← sprintfCmd 128 (dhclientCmd dev))
  return 0

/-! ## Reading what a command prints -/

/-- The line feed. -/
def newline : UInt8 := 10

/-- How many octets `fgets` takes: through the first line feed, at most one less than the buffer. -/
def fgetsLength (size : Nat) (out : List UInt8) : Nat :=
  min (size - 1) ((out.takeWhile (· ≠ newline)).length + 1)

/-- `std::string::find`; `none` is `npos`. -/
def find (pat : List UInt8) : List UInt8 → Option Nat
  | [] => if pat = [] then some 0 else none
  | c :: s => if pat <+: c :: s then some 0 else (find pat s).map (· + 1)

/-- `find(..) + 6` as a `size_t`: `npos` is the largest one, so the sum wraps round to `5`. -/
def markerEnd (ssid : List UInt8) : Nat :=
  match find (ascii "SSID: ") ssid with
  | some pos => pos + 6
  | none => 5

/-- `while (fgets(tmp, sizeof(tmp), pp) != NULL)`, the loop with
`ssid = tmp; ssid = tmp + ssid.find("SSID: ") + 6`. -/
def readLink (tmp ssid out : List UInt8) : List UInt8 :=
  if h : out = [] then ssid
  else
    let n := fgetsLength 256 out
    let tmp := store tmp 0 (out.take n ++ [0])
    readLink tmp (cstr tmp (markerEnd (cstr tmp 0))) (out.drop n)
termination_by out.length
decreasing_by
  have := List.length_pos_iff.mpr h
  simp only [List.length_drop, fgetsLength]
  omega

/-- `Wifi::GetSsid`; `popen` is what the command prints, `none` when it cannot be run.  A
`std::string` made from `nullptr` is undefined. -/
def getSsid (popen : Option (List UInt8)) : Act (List UInt8) := do
  let w ← get
  let ssid := cstr w.fields.wifi.mem Member.ssid.off
  -- the record knows the name
  if ssid ≠ [] then return ssid
  system (← sprintfCmd 64 (linkCmd w.dev))
  match popen with
  | none => throw .undefined
  | some out => return readLink (List.replicate 256 0) ssid out

/-! ## The other calls -/

/-- `Wifi::LinkStatus`. -/
def linkStatus : Act Int := return (← get).fields.wifi.int .signal

/-- `Wifi::LinkMsg`: the result and the copy of the record. -/
def linkMsg : Act (Int × WifiMsg) := return (0, (← get).fields.wifi)

/-- `Wifi::ScanSsid`. -/
def scanSsid : Act Int := return 0

/-- `Wifi::ConnectAp()`. -/
def connectAp : Act Int := return 0

/-- `Wifi::CreatAp`. -/
def creatAp (_ssid : List UInt8) : Act Int := return 0

/-- `Wifi::PowerSave`. -/
def powerSave (_power : Bool) : Act Int := return 0

/-- `Wifi::ResetWifi`. -/
def resetWifi : Act Int := return 0

/-- A public call with its arguments. -/
inductive PublicCall where
  | linkStatus
  | linkMsg
  | getSsid (popen : Option (List UInt8))
  | scanSsid
  | connectAp
  | connectApTo (ap pwd : List UInt8)
  | creatAp (ssid : List UInt8)
  | powerSave (power : Bool)
  | resetWifi
  deriving DecidableEq, Repr

/-- Make a call and drop its result. -/
def PublicCall.run : PublicCall → Act Unit
  | linkStatus => do let _ ← Wifi.linkStatus
  | linkMsg => do let _ ← Wifi.linkMsg
  | getSsid popen => do let _ ← Wifi.getSsid popen
  | scanSsid => do let _ ← Wifi.scanSsid
  | connectAp => do let _ ← Wifi.connectAp
  | connectApTo ap pwd => do let _ ← Wifi.connectApTo ap pwd
  | creatAp ssid => do let _ ← Wifi.creatAp ssid
  | powerSave power => do let _ ← Wifi.powerSave power
  | resetWifi => do let _ ← Wifi.resetWifi

/-! ## They leave netlink alone -/

section Frame

variable {I : World → Prop} {E : Stop → World → Prop}

/-- No public call breaks a property that does not depend on the list of shell commands. -/
theorem PublicCall.run_keeps (hI : ∀ w cs, I w → I { w with commands := cs })
    (hE : ∀ w, I w → E .undefined w) (c : PublicCall) : Keeps I E c.run := by
  have line (size : Nat) (cmd : List UInt8) {α : Type} {x : Act α} (hx : Keeps I E x) :
      Keeps I E (sprintfCmd size cmd >>= fun l => system l >>= fun _ => x) :=
    .andThen (.choose (.ret cmd) (.stop hE)) fun l =>
      .andThen (.update fun w => hI w (w.commands ++ [l])) fun _ => hx
  cases c with
  | linkStatus => exact .andThen (.andThen .read fun w => .ret _) fun _ => .ret ()
  | linkMsg => exact .andThen (.andThen .read fun w => .ret _) fun _ => .ret ()
  | getSsid popen =>
      refine .andThen (.andThen .read fun w => .choose (.ret _) (line 64 _ ?_)) fun _ => .ret ()
      cases popen with
      | none => exact .stop hE
      | some out => exact .ret _
  | connectApTo ap pwd =>
      exact .andThen (.andThen .read fun w => line 128 _ (line 128 _ (line 128 _ (.ret 0))))
        fun _ => .ret ()
  | scanSsid | connectAp | creatAp | powerSave | resetWifi =>
      exact .andThen (.ret 0) fun _ => .ret ()

end Frame

end Nl80211.Wifi
