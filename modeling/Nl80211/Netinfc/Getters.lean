/-
# Nl80211.Netinfc.Getters — what a successful getter delivers.

Each getter fetches the kernel's answer into the union.  `GetInet` and `GetHwaddr` put it into their
output parameter as a text, and the text determines the value (`denotes_iff`); `GetMask` and
`GetMacAddr` report success and leave the parameter as it was.
-/
import Nl80211.Netinfc.Flags

namespace Nl80211.Netinfc

open Lib.Bytes

/-! ## What the getters should deliver -/

/-- A hardware address as `GetHwaddr` prints it. -/
def hwText (hd : List UInt8) : List UInt8 := (ascii ":").intercalate (hd.map hex02X)

namespace NetCall

/-- What a getter returns, and its output parameter afterwards. -/
def got (reply : Reply) (w : NetWorld) : NetCall → Option (Bool × Mem)
  | getInet ip => some ((Netinfc.getInet reply ip w).1, (Netinfc.getInet reply ip w).2.1)
  | getMask mac => some ((Netinfc.getMask reply mac w).1, (Netinfc.getMask reply mac w).2.1)
  | getHwaddr mac => some ((Netinfc.getHwaddr reply mac w).1, (Netinfc.getHwaddr reply mac w).2.1)
  | getMacAddr mac => some ((Netinfc.getMacAddr reply mac w).1,
    (Netinfc.getMacAddr reply mac w).2.1)
  | _ => none

/-- The output parameter as the caller passes it. -/
def buffer : NetCall → Mem
  | getInet buf | getMask buf | getHwaddr buf | getMacAddr buf => buf
  | _ => []

/-- The value a getter asks the kernel for, in the kernel's answer. -/
def asked (answer : Ifru) : NetCall → List UInt8
  | getInet _ | getMask _ => answer.sinAddr
  | getHwaddr _ | getMacAddr _ => answer.hwaddr
  | _ => []

/-- The output parameter holds the value: the text of an IPv4 address or netmask, the text of a
hardware address, the six octets. -/
def Denotes (out : Mem) (v : List UInt8) : NetCall → Prop
  | getInet _ | getMask _ => v.length = 4 ∧ out = inetNtoa v
  | getHwaddr _ => v.length = 6 ∧ cstr out 0 = hwText v
  | getMacAddr _ => v.length = 6 ∧ octets out 0 6 = v
  | _ => False

/-- The caller's array has room for what the method prints, terminator included. -/
def Roomy : NetCall → Prop
  | getHwaddr mac => 18 ≤ mac.length
  | _ => True

/-- The method has no statement that writes its output parameter. -/
def mute : NetCall → Bool
  | getMask _ | getMacAddr _ => true
  | _ => false

end NetCall

/-- A getter that returns true has delivered the value the kernel returned, and no other; one that
returns false has left its output parameter alone. -/
def GetterDelivers (reply : Reply) (w : NetWorld) (c : NetCall) : Prop :=
  ∀ ok out, c.got reply w = some (ok, out) →
    (ok = true → ∀ v, c.Denotes out v ↔ v = c.asked reply.answer) ∧ (ok = false → out = c.buffer)

section Runs

variable (inetAton : List UInt8 → Option (List UInt8))

/-- The same for every call of a sequence, with the answers that the kernel gives from the `i`-th
on. -/
def RunDelivers (answers : Nat → Ifru) : Nat → List (NetCall × Bool) → NetWorld → Prop
  | _, [], _ => True
  | i, (c, ok) :: cs, w =>
      GetterDelivers ⟨ok, answers i⟩ w c ∧
        RunDelivers answers (i + 1) cs (c.run inetAton ⟨ok, answers i⟩ w)

/-- The calls of a run, each with the reply it gets and the object it is made on. -/
def callsOf (answers : Nat → Ifru) :
    Nat → List (NetCall × Bool) → NetWorld → List (Reply × NetWorld × NetCall)
  | _, [], _ => []
  | i, (c, ok) :: cs, w =>
      (⟨ok, answers i⟩, w, c) :: callsOf answers (i + 1) cs (c.run inetAton ⟨ok, answers i⟩ w)

/-- Where the kernel returned the same address, the text of `GetHwaddr` and the octets of
`GetMacAddr` denote the same octets. -/
def HwaddrsAgree (calls : List (Reply × NetWorld × NetCall)) : Prop :=
  ∀ reply w mac, (reply, w, .getHwaddr mac) ∈ calls →
    ∀ reply' w' mac', (reply', w', .getMacAddr mac') ∈ calls → ∀ out out',
      (NetCall.getHwaddr mac).got reply w = some (true, out) →
      (NetCall.getMacAddr mac').got reply' w' = some (true, out') →
      reply.answer.hwaddr = reply'.answer.hwaddr →
        ∀ v, (NetCall.getHwaddr mac).Denotes out v ↔ (NetCall.getMacAddr mac').Denotes out' v

/-- Whatever the kernel answers, the getters of a constructed object deliver along the calls `cs`,
each given with the success of its `ioctl`, and the two for the hardware address agree. -/
def GettersDeliver (netdev : List UInt8) (cs : List (NetCall × Bool)) : Prop :=
  ∀ sock ifru kernelFlags answers w,
    netinfcNew netdev sock ⟨true, answers 0⟩ kernelFlags ifru = some w →
      RunDelivers inetAton answers 1 cs w ∧ HwaddrsAgree (callsOf inetAton answers 1 cs w)

end Runs

/-! ## Texts determine addresses -/

theorem toNat_of_mem_toDigits {n : Nat} {c : Char} (h : c ∈ Nat.toDigits 10 n) :
    48 ≤ c.toNat ∧ c.toNat ≤ 57 := by
  have hdigit := Nat.isDigit_of_mem_toDigits (by decide) (by decide) h
  simp only [Char.isDigit, ge_iff_le, Bool.and_eq_true, decide_eq_true_eq, UInt32.le_iff_toNat_le]
    at hdigit
  exact hdigit

theorem ascii_toString (n : Nat) :
    ascii (toString n) = (Nat.toDigits 10 n).map fun c => UInt8.ofNat c.toNat := by
  rw [ascii, Nat.toString_eq_repr, Nat.toList_repr]

/-- The digits of a number are read back from its text. -/
theorem toDigits_ascii (n : Nat) :
    (ascii (toString n)).map (fun b => Char.ofNat b.toNat) = Nat.toDigits 10 n := by
  rw [ascii_toString, List.map_map]
  -- a digit is ASCII, so the octet it becomes is its code
  have hid : ∀ c ∈ Nat.toDigits 10 n,
      ((fun b : UInt8 => Char.ofNat b.toNat) ∘ fun c : Char => UInt8.ofNat c.toNat) c = id c := by
    intro c hc
    have hrange := toNat_of_mem_toDigits hc
    rw [Function.comp, UInt8.toNat_ofNat', Nat.mod_eq_of_lt (by omega), Char.ofNat_toNat, id]
  rw [List.map_congr_left hid, List.map_id]

/-- The text of an octet determines it. -/
theorem ascii_toString_injective :
    Function.Injective fun b : UInt8 => ascii (toString b.toNat) := by
  intro a b h
  have hdigits := congrArg (List.map fun b : UInt8 => Char.ofNat b.toNat) h
  simp only [toDigits_ascii] at hdigits
  have hnum := congrArg (Nat.ofDigitChars 10 · 0) hdigits
  simp only [Nat.ofDigitChars_ten_toDigits] at hnum
  exact UInt8.toNat_inj.mp hnum

/-- No dot in the text of an octet. -/
theorem dot_not_mem_ascii (n : Nat) : 46 ∉ ascii (toString n) := by
  rw [ascii_toString, List.mem_map]
  rintro ⟨c, hc, h⟩
  have hrange := toNat_of_mem_toDigits hc
  have hnat := congrArg UInt8.toNat h
  rw [UInt8.toNat_ofNat', Nat.mod_eq_of_lt (by omega)] at hnat
  have : c.toNat = 46 := hnat
  omega

/-- Texts that are joined by an octet that none of them holds are read back. -/
theorem intercalate_injective {α : Type} (f : α → List UInt8) (hf : Function.Injective f)
    {sep : UInt8}
    (hsep : ∀ x, sep ∉ f x) {a b : List α} (ha : a ≠ []) (hb : b ≠ [])
    (h : [sep].intercalate (a.map f) = [sep].intercalate (b.map f)) : a = b := by
  -- splitting at the separator undoes the joining
  have split {l : List α} (hl : l ≠ []) : ([sep].intercalate (l.map f)).splitOn sep = l.map f := by
    refine List.splitOn_intercalate sep (fun t ht => ?_) (by simpa using hl)
    obtain ⟨x, -, rfl⟩ := List.mem_map.mp ht
    exact hsep x
  have hmap : a.map f = b.map f := by rw [← split ha, ← split hb, h]
  exact List.map_injective_iff.mpr hf hmap

theorem inetNtoa_injective {a b : List UInt8} (ha : a ≠ []) (hb : b ≠ [])
    (h : inetNtoa a = inetNtoa b) : a = b :=
  intercalate_injective _ ascii_toString_injective (fun x => dot_not_mem_ascii x.toNat) ha hb h

/-- An upper-case hexadecimal digit is read back. -/
def unhex (d : UInt8) : Nat := if d < 65 then d.toNat - 48 else d.toNat - 55

theorem hex02X_digits : ∀ m n : Fin 16,
    (hex02X (UInt8.ofNat (16 * m.val + n.val))).map unhex = [m.val, n.val] ∧
      58 ∉ hex02X (UInt8.ofNat (16 * m.val + n.val)) ∧
        0 ∉ hex02X (UInt8.ofNat (16 * m.val + n.val)) := by
  decide +kernel

/-- The two digits of an octet, and two octets they are not. -/
theorem hex02X_spec (b : UInt8) :
    (hex02X b).map unhex = [b.toNat / 16, b.toNat % 16] ∧ 58 ∉ hex02X b ∧ 0 ∉ hex02X b := by
  have hlt := b.toNat_lt
  have h := hex02X_digits ⟨b.toNat / 16, by omega⟩ ⟨b.toNat % 16, by omega⟩
  rwa [show 16 * (b.toNat / 16) + b.toNat % 16 = b.toNat by omega, UInt8.ofNat_toNat] at h

theorem hex02X_injective : Function.Injective hex02X := by
  intro a b h
  have hdigits := congrArg (List.map unhex) h
  rw [(hex02X_spec a).1, (hex02X_spec b).1] at hdigits
  simp only [List.cons.injEq, and_true] at hdigits
  exact UInt8.toNat_inj.mp (by omega)

theorem hwText_injective {a b : List UInt8} (ha : a ≠ []) (hb : b ≠ [])
    (h : hwText a = hwText b) : a = b :=
  intercalate_injective _ hex02X_injective (fun x => (hex02X_spec x).2.1) ha hb h

/-- The text of six octets is a C string of 17 characters. -/
theorem hwText_of_six {hd : List UInt8} (h : hd.length = 6) :
    (hwText hd).length = 17 ∧ ∀ x ∈ hwText hd, x ≠ 0 := by
  match hd, h with
  | [a, b, c, d, e, f], _ =>
      have htext : hwText [a, b, c, d, e, f] = hex02X a ++ 58 :: (hex02X b ++ 58 :: (hex02X c ++
          58 :: (hex02X d ++ 58 :: (hex02X e ++ 58 :: hex02X f)))) := rfl
      rw [htext]
      refine ⟨rfl, ?_⟩
      rintro x hx rfl
      have hno (y : UInt8) : 0 ∉ hex02X y := (hex02X_spec y).2.2
      simp [hno] at hx

/-- Printed into an array with room for it, the text is what the array holds. -/
theorem cstr_hwText {mac : Mem} {hd : List UInt8} (h : hd.length = 6) (hroom : 18 ≤ mac.length) :
    cstr (store mac 0 (hwText hd ++ [0])) 0 = hwText hd := by
  obtain ⟨hlen, hne⟩ := hwText_of_six h
  have hself : octets (store mac 0 (hwText hd ++ [0])) 0 (hwText hd ++ [0]).length =
      hwText hd ++ [0] := by
    apply octets_store_self
    rw [List.length_append, hlen]
    exact hroom
  rw [List.length_append, List.length_singleton] at hself
  exact cstr_of_octets hne hself

/-! ## What the getters deliver -/

theorem Ifru.sinAddr_length (u : Ifru) : u.sinAddr.length = 4 := octets_length ..

theorem Ifru.hwaddr_length (u : Ifru) : u.hwaddr.length = 6 := octets_length ..

section Call

variable {reply : Reply} {w : NetWorld} {c : NetCall}

/-- A text that holds the value holds no other. -/
theorem denotes_iff {text : List UInt8 → List UInt8} {n : Nat} (hn : 0 < n)
    (hinj : ∀ {a b : List UInt8}, a ≠ [] → b ≠ [] → text a = text b → a = b) {v₀ : List UInt8}
    (hv₀ : v₀.length = n) (v : List UInt8) : (v.length = n ∧ text v₀ = text v) ↔ v = v₀ := by
  constructor
  · rintro ⟨hv, htext⟩
    exact (hinj (List.ne_nil_of_length_pos (by omega)) (List.ne_nil_of_length_pos (by omega))
      htext).symm
  · rintro rfl
    exact ⟨hv₀, rfl⟩

/-- Where it succeeds, a getter that writes its parameter delivers. -/
theorem getterDelivers_of (hroom : c.Roomy) (hmute : reply.ok = true → c.mute = false) :
    GetterDelivers reply w c := by
  obtain ⟨ok, answer⟩ := reply
  intro ok' out hgot
  -- a getter that fails returns before it touches its parameter
  cases c with
  | getInet ip =>
      cases ok with
      | false =>
          cases hgot
          exact ⟨nofun, fun _ => rfl⟩
      | true =>
          cases hgot
          refine ⟨fun _ v => ?_, nofun⟩
          exact denotes_iff (by decide) inetNtoa_injective answer.sinAddr_length v
  | getHwaddr mac =>
      cases ok with
      | false =>
          cases hgot
          exact ⟨nofun, fun _ => rfl⟩
      | true =>
          cases hgot
          refine ⟨fun _ v => ?_, nofun⟩
          show (v.length = 6 ∧ cstr (store mac 0 (hwText answer.hwaddr ++ [0])) 0 = hwText v) ↔ _
          rw [cstr_hwText answer.hwaddr_length hroom]
          exact denotes_iff (by decide) hwText_injective answer.hwaddr_length v
  | getMask mac | getMacAddr mac =>
      cases ok with
      | false =>
          cases hgot
          exact ⟨nofun, fun _ => rfl⟩
      | true => cases hmute rfl
  | _ => cases hgot

/-- A mute getter that delivers has been passed a parameter that holds the value already. -/
theorem GetterDelivers.of_mute {answer : Ifru} (h : GetterDelivers ⟨true, answer⟩ w c)
    (hc : c.mute = true) (v : List UInt8) : c.Denotes c.buffer v ↔ v = c.asked answer := by
  cases c with
  | getMask mac => exact (h true mac rfl).1 rfl v
  | getMacAddr mac => exact (h true mac rfl).1 rfl v
  | _ => cases hc

/-- Asked for the same address, the two getters for it hand out the same octets. -/
theorem hwaddr_agree {reply' : Reply} {w' : NetWorld} {mac mac' out out' : Mem}
    (h : GetterDelivers reply w (.getHwaddr mac)) (h' : GetterDelivers reply' w' (.getMacAddr mac'))
    (hgot : (NetCall.getHwaddr mac).got reply w = some (true, out))
    (hgot' : (NetCall.getMacAddr mac').got reply' w' = some (true, out'))
    (hsame : reply.answer.hwaddr = reply'.answer.hwaddr) (v : List UInt8) :
    (NetCall.getHwaddr mac).Denotes out v ↔ (NetCall.getMacAddr mac').Denotes out' v := by
  rw [(h true out hgot).1 rfl, (h' true out' hgot').1 rfl]
  exact iff_of_eq (congrArg (v = ·) hsame)

end Call

/-! ## Whole runs -/

section Runs

variable {inetAton : List UInt8 → Option (List UInt8)}

/-- Calls that deliver one by one deliver along a run. -/
theorem runDelivers_of (answers : Nat → Ifru) (cs : List (NetCall × Bool)) :
    ∀ i w, (∀ c ∈ cs, c.1.Roomy ∧ (c.2 = true → c.1.mute = false)) →
      RunDelivers inetAton answers i cs w := by
  induction cs with
  | nil => exact fun _ _ _ => trivial
  | cons step cs ih =>
      obtain ⟨c, ok⟩ := step
      intro i w h
      obtain ⟨⟨hroom, hmute⟩, hrest⟩ := List.forall_mem_cons.mp h
      exact ⟨getterDelivers_of hroom hmute, ih (i + 1) _ hrest⟩

/-- A call of a run that delivers delivers, here with one and the same answer to every request. -/
theorem delivers_of_run {answer : Ifru} {c : NetCall} {ok : Bool} (cs : List (NetCall × Bool)) :
    ∀ i w, RunDelivers inetAton (fun _ => answer) i cs w → (c, ok) ∈ cs →
      ∃ w', GetterDelivers ⟨ok, answer⟩ w' c := by
  induction cs with
  | nil => exact fun _ _ _ h => absurd h List.not_mem_nil
  | cons step cs ih =>
      intro i w hrun hmem
      rcases List.mem_cons.mp hmem with rfl | hmem
      · exact ⟨w, hrun.1⟩
      · exact ih (i + 1) _ hrun.2 hmem

/-- Getters that deliver along a run deliver in each of its calls. -/
theorem delivers_of_mem (answers : Nat → Ifru) (cs : List (NetCall × Bool)) :
    ∀ i w, RunDelivers inetAton answers i cs w →
      ∀ x ∈ callsOf inetAton answers i cs w, GetterDelivers x.1 x.2.1 x.2.2 := by
  induction cs with
  | nil => exact fun _ _ _ x hx => absurd hx List.not_mem_nil
  | cons step cs ih =>
      intro i w hrun x hx
      rcases List.mem_cons.mp hx with rfl | hx
      · exact hrun.1
      · exact ih (i + 1) _ hrun.2 x hx

/-- And then those for the hardware address agree. -/
theorem hwaddrsAgree_of {answers : Nat → Ifru} {cs : List (NetCall × Bool)} {i : Nat} {w : NetWorld}
    (h : RunDelivers inetAton answers i cs w) : HwaddrsAgree (callsOf inetAton answers i cs w) := by
  intro reply w₁ mac hmem reply' w₂ mac' hmem' out out' hgot hgot' hsame
  exact hwaddr_agree (delivers_of_mem answers cs i w h _ hmem)
    (delivers_of_mem answers cs i w h _ hmem')
    hgot hgot' hsame

/-- An answer with other octets than zeros where the values lie. -/
def Ifru.ones : Ifru := ⟨List.replicate 24 1, rfl⟩

/-- **Getters.** Along a sequence of calls the getters deliver what the kernel returned, whatever it
returned, and agree about the hardware address, exactly when no call of `GetMask` or `GetMacAddr`
succeeds. -/
theorem gettersDeliver_iff {netdev : List UInt8} (hdev : (cstr netdev 0).length < ifnamsiz)
    {cs : List (NetCall × Bool)} (hroom : ∀ c ∈ cs, c.1.Roomy) :
    GettersDeliver inetAton netdev cs ↔ ∀ c ∈ cs, c.2 = true → c.1.mute = false := by
  constructor
  · intro h step hstep hok
    obtain ⟨c, ok⟩ := step
    cases hok
    by_contra hmute
    have hmute := eq_true_of_ne_false hmute
    -- two kernels that answer differently: the parameter cannot hold both values
    have holds (answer : Ifru) (v : List UInt8) : c.Denotes c.buffer v ↔ v = c.asked answer := by
      obtain ⟨w, hnew, -⟩ := netinfcNew_ok answer answer 0 hdev (Int.zero_le_ofNat 3)
      obtain ⟨w', hcall⟩ := delivers_of_run cs 1 w (h 3 _ 0 (fun _ => answer) w hnew).1 hstep
      exact hcall.of_mute hmute v
    have heq := (holds .zero _).mp ((holds .ones _).mpr rfl)
    cases c with
    | getMask mac => exact absurd heq (show Ifru.ones.sinAddr ≠ Ifru.zero.sinAddr by decide)
    | getMacAddr mac => exact absurd heq (show Ifru.ones.hwaddr ≠ Ifru.zero.hwaddr by decide)
    | _ => cases hmute
  · intro h sock ifru kernelFlags answers w hnew
    have hrun : RunDelivers inetAton answers 1 cs w :=
      runDelivers_of answers cs 1 w fun c hc => ⟨hroom c hc, h c hc⟩
    exact ⟨hrun, hwaddrsAgree_of hrun⟩

end Runs

theorem inet_and_hwaddr_deliver :
    GettersDeliver (fun _ => none) (ascii "eth0")
      [(.getInet [], true), (.getHwaddr (List.replicate 18 0), true), (.getMask [], false)] :=
  (gettersDeliver_iff (by decide) (by simp [NetCall.Roomy])).mpr (by simp [NetCall.mute])

/-- `GetMask` and `GetMacAddr` succeed and leave the caller's arrays as they were. -/
theorem mask_and_mac_not_delivered :
    ¬ GettersDeliver (fun _ => none) (ascii "eth0") [(.getMask [], true)] ∧
      ¬ GettersDeliver (fun _ => none) (ascii "eth0")
        [(.getMacAddr (List.replicate 6 0), true)] := by
  constructor
  · intro h
    have hcall := (h 3 .zero 0 (fun _ => .zero) _ rfl).1.1
    have hlen := ((hcall.of_mute rfl _).mpr rfl).2
    revert hlen
    decide
  · intro h
    have hcall := (h 3 .zero 0 (fun _ => .ones) _ rfl).1.1
    have hoct := ((hcall.of_mute rfl _).mpr rfl).2
    revert hoct
    decide

end Nl80211.Netinfc
