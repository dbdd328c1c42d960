/-
# Nl80211.Wifi.Commands — what the shell makes of the command lines.

`ConnectAp` and `GetSsid` put names and passphrases into command lines as they are.  The lines mean
what is intended exactly when nothing in these texts means anything to the shell and the lines fit
their buffers: with a blank the first line has a third argument, with `;` a second command, and a
network name of 32 octets with a passphrase of 63 does not fit.

The direction from the meaning to the texts rests on counting: a line that stands for the intended
arguments has no octet left for a quote or a backslash.
-/
import Mathlib
import Nl80211.Lib.ShellAccount
import Nl80211.Wifi.Calls

namespace Nl80211.Wifi

open Lib Lib.Bytes Lib.Shell

/-! ## What is meant -/

/-- The configuration of the supplicant. -/
def confFile : List UInt8 := ascii "/etc/wpa_supplicant.conf"

/-- `wpa_passphrase` with both texts, into the configuration. -/
def passphraseMeant (ap pwd : List UInt8) : List Cmd :=
  [⟨[ascii "wpa_passphrase", ap, pwd], [confFile]⟩]

/-- The supplicant on the interface. -/
def supplicantMeant (dev : List UInt8) : List Cmd :=
  [⟨[ascii "wpa_supplicant", ascii "-B", ascii "-i", dev, ascii "-c", confFile], []⟩]

/-- An address for the interface. -/
def dhclientMeant (dev : List UInt8) : List Cmd := [⟨[ascii "dhclient", dev], []⟩]

/-- The link of the interface, filtered. -/
def linkMeant (dev : List UInt8) : List Cmd :=
  [⟨[ascii "iw", dev, ascii "link"], []⟩, ⟨[ascii "grep", ascii "SSID"], []⟩]

/-- The action returns, and the lines it hands to the shell have these meanings. -/
def Runs {α : Type} (x : Act α) (w : World) (meant : List (List Cmd)) : Prop :=
  ∃ a w' lines, x w = .ok a w' ∧ w'.commands = w.commands ++ lines ∧
    lines.map meaning = meant.map some

/-- Every object for the interface runs what is meant: on `ConnectAp(ap, pwd)`, and on `GetSsid`
when its record has no network name. -/
def CommandsMeant (dev ap pwd : List UInt8) : Prop :=
  ∀ w : World, w.dev = dev →
    Runs (connectApTo ap pwd) w [passphraseMeant ap pwd, supplicantMeant dev, dhclientMeant dev] ∧
    (cstr w.fields.wifi.mem Member.ssid.off = [] →
      ∀ out, Runs (getSsid (some out)) w [linkMeant dev])

/-! ## Texts that stand for themselves -/

theorem cText_plain {s : List UInt8} (h : PlainWord s) : cText s = s := by
  rw [cText, cstr, List.drop_zero]
  refine List.takeWhile_eq_self_iff.mpr fun c hc => decide_eq_true fun h0 => ?_
  subst h0
  rcases h.octets 0 hc with hk | hk
  all_goals cases hk

theorem cText_length_le (s : List UInt8) : (cText s).length ≤ s.length := by
  simpa [cText, cstr] using (List.takeWhile_sublist fun x : UInt8 => x ≠ 0).length_le

theorem passphrase_meaning {ap pwd : List UInt8} (hap : PlainWord ap) (hpwd : PlainWord pwd) :
    meaning (passphraseCmd ap pwd) = some (passphraseMeant ap pwd) := by
  have hline : passphraseCmd ap pwd =
      spaced [wordOf (ascii "wpa_passphrase"), wordOf ap, wordOf pwd, .great, wordOf confFile] := by
    simp [passphraseCmd, spaced, cText_plain hap, cText_plain hpwd, ascii,
      confFile]
  have hname : PlainWord (ascii "wpa_passphrase") := by decide
  have hconf : PlainWord confFile := by decide
  rw [hline]
  refine meaning_spaced ?_ ?_ rfl
  · simp [plain_wordOf, hname, hconf, hap, hpwd]
  · simp [parse_wordOf, parse_great_wordOf, hname, hconf, hap, hpwd, parse, addArg, addOut,
      passphraseMeant]

theorem supplicant_meaning {dev : List UInt8} (h : PlainWord dev) :
    meaning (supplicantCmd dev) = some (supplicantMeant dev) := by
  have hline : supplicantCmd dev =
      spaced ([ascii "wpa_supplicant", ascii "-B", ascii "-i", dev, ascii "-c", confFile].map
        wordOf) := by
    simp [supplicantCmd, spaced, cText_plain h, ascii, confFile]
  have hname : PlainWord (ascii "wpa_supplicant") := by decide
  have hB : PlainWord (ascii "-B") := by decide
  have hi : PlainWord (ascii "-i") := by decide
  have hc : PlainWord (ascii "-c") := by decide
  have hconf : PlainWord confFile := by decide
  rw [hline]
  refine meaning_spaced ?_ ?_ rfl
  · simp [plain_wordOf, hname, hB, hi, hc, hconf, h]
  · simp [parse_wordOf, hname, hB, hi, hc, hconf, h, parse, addArg, supplicantMeant]

theorem dhclient_meaning {dev : List UInt8} (h : PlainWord dev) :
    meaning (dhclientCmd dev) = some (dhclientMeant dev) := by
  have hline : dhclientCmd dev = spaced [wordOf (ascii "dhclient"), wordOf dev] := by
    simp [dhclientCmd, spaced, cText_plain h, ascii]
  have hname : PlainWord (ascii "dhclient") := by decide
  rw [hline]
  refine meaning_spaced ?_ ?_ rfl
  · simp [plain_wordOf, hname, h]
  · simp [parse_wordOf, hname, h, parse, addArg, dhclientMeant]

theorem link_meaning {dev : List UInt8} (h : PlainWord dev) :
    meaning (linkCmd dev) = some (linkMeant dev) := by
  have hline : linkCmd dev =
      spaced [wordOf (ascii "iw"), wordOf dev, wordOf (ascii "link"), .pipe, wordOf (ascii "grep"),
        wordOf (ascii "SSID")] := by
    simp [linkCmd, spaced, cText_plain h, ascii]
  have hiw : PlainWord (ascii "iw") := by decide
  have hlink : PlainWord (ascii "link") := by decide
  have hgrep : PlainWord (ascii "grep") := by decide
  have hssid : PlainWord (ascii "SSID") := by decide
  rw [hline]
  refine meaning_spaced ?_ ?_ rfl
  · simp [plain_wordOf, hiw, hlink, hgrep, hssid, h]
  · simp [parse_wordOf, hiw, hlink, hgrep, hssid, h, parse, addArg, linkMeant]

/-! ## Lines that mean what is intended -/

theorem plain_of_dhclient {dev : List UInt8}
    (h : meaning (dhclientCmd dev) = some (dhclientMeant dev)) : PlainWord dev := by
  obtain ⟨ts, hlex, hu⟩ := lex_of_meaning h
  obtain ⟨⟨out, mode⟩, hrun, hfin⟩ := Option.bind_eq_some_iff.mp hlex
  have hacc := run_account hrun
  -- the words of the line cost one octet more than the line has, so nothing in it is quoted
  have hcost : wordCost (words ts) = dev.length + 10 := by
    rw [← hu.cost]
    simp [dhclientMeant, texts, textCost, ascii]
    omega
  have hlen : (dhclientCmd dev).length ≤ dev.length + 9 := by
    have := cText_length_le dev
    simp [dhclientCmd, ascii]
    omega
  obtain ⟨w, hw, he⟩ := hu.from_word dev (by simp [dhclientMeant, texts])
  cases mode with
  | base p prev =>
      obtain rfl := Option.some.inj hfin
      simp only [words_append, words_flush] at hcost hw
      exact (hacc.bare (by omega) w hw).plainWord he
  | comment =>
      obtain rfl := Option.some.inj hfin
      have hle := hacc.le
      simp [St.cost, Mode.pending, Mode.spent] at hle
      simp at hcost
      omega
  | esc _ _ | squote _ | dquote _ | dqEsc _ => cases hfin

/-- The part of the line up to the end of the passphrase. -/
def passphraseHead (ap pwd : List UInt8) : List UInt8 :=
  ascii "wpa_passphrase " ++ cText ap ++ ascii " " ++ cText pwd

theorem redirection_eq :
    ascii " > /etc/wpa_supplicant.conf" = ascii " > " ++ confFile := rfl

theorem run_redirection (out : List Token) (p : Option QWord) (prev : Option Token) :
    run ⟨out, .base p prev⟩ (ascii " > /etc/wpa_supplicant.conf") =
      some ⟨out ++ flush p ++ [.great], .base (some (lit confFile)) none⟩ := by
  have hop : run ⟨out, .base p prev⟩ (ascii " > ") =
      some ⟨out ++ flush p ++ [.great], .base none none⟩ := by
    simp [run, step, kind, ascii, flush, ioNumber]
  rw [redirection_eq, run_append, hop, Option.bind_some, run_plain (by decide)]

theorem run_redirection_esc (out : List Token) (p : Option QWord) (prev : Option Token) :
    run ⟨out, .esc p prev⟩ (ascii " > /etc/wpa_supplicant.conf") =
      some ⟨out ++ [.word (p.getD [] ++ [(32, true)]), .great],
        .base (some (lit confFile)) none⟩ := by
  have hop : run ⟨out, .esc p prev⟩ (ascii " > ") =
      some ⟨out ++ [.word (p.getD [] ++ [(32, true)]), .great], .base none none⟩ := by
    simp [run, step, kind, ascii, flush, ioNumber]
  rw [redirection_eq, run_append, hop, Option.bind_some, run_plain (by decide)]

/-- A head that ends in a backslash is one of a passphrase that does. -/
theorem backslash_of_head {ap pwd : List UInt8}
    (h : (passphraseHead ap pwd).getLast? = some 92) : 92 ∈ pwd := by
  by_cases hne : cText pwd = []
  · have hlast : (passphraseHead ap pwd).getLast? = some 32 := by
      rw [passphraseHead, hne, List.append_nil]
      exact List.getLast?_concat
    cases h.symm.trans hlast
  · rw [passphraseHead, List.getLast?_append_of_ne_nil _ hne] at h
    exact (List.takeWhile_sublist _).subset (List.mem_of_getLast? h)

theorem passphraseHead_ne_nil (ap pwd : List UInt8) : passphraseHead ap pwd ≠ [] :=
  List.cons_ne_nil _ _

/-- A backslash behind the passphrase would be the only octet to spare, and no word
would hold one. -/
theorem no_backslash {ws : List QWord} {p : Option QWord} (h : ∀ w ∈ ws ++ p.toList, Bare w) :
    ∀ w ∈ ws ++ [p.getD [] ++ [(32, true)]] ++ [lit confFile], 92 ∉ w.map Prod.fst := by
  have hbare : ∀ w, Bare w → 92 ∉ w.map Prod.fst := fun w hw hc => by
    rcases hw.kind_of_mem hc with hk | hk <;> cases hk
  have hconf : PlainWord confFile := by decide
  simp only [List.forall_mem_append, List.forall_mem_singleton] at h ⊢
  refine ⟨⟨fun w hw => hbare w (h.1 w hw), ?_⟩, hbare _ hconf.bare⟩
  rw [List.map_append, List.mem_append, not_or]
  refine ⟨?_, by simp⟩
  cases p with
  | none => simp
  | some w => exact hbare w (h.2 w (by simp))

theorem plain_of_passphrase {ap pwd : List UInt8}
    (h : meaning (passphraseCmd ap pwd) = some (passphraseMeant ap pwd)) :
    PlainWord ap ∧ PlainWord pwd := by
  obtain ⟨ts, hlex, hu⟩ := lex_of_meaning h
  obtain ⟨⟨out, mode⟩, hrun, hfin⟩ := lex_append (a := passphraseHead ap pwd) hlex
  have hacc := run_account hrun
  have hcost : wordCost (words ts) = ap.length + pwd.length + 42 := by
    rw [← hu.cost]
    simp [passphraseMeant, texts, textCost, ascii, confFile]
    omega
  have hlen : (passphraseHead ap pwd).length ≤ ap.length + pwd.length + 16 := by
    have := cText_length_le ap
    have := cText_length_le pwd
    simp [passphraseHead, ascii]
    omega
  obtain ⟨wa, hwa, hea⟩ := hu.from_word ap (by simp [passphraseMeant, texts])
  obtain ⟨wp, hwp, hep⟩ := hu.from_word pwd (by simp [passphraseMeant, texts])
  have hconf : PlainWord confFile := by decide
  have hconflen : (lit confFile).length = 24 := rfl
  cases mode with
  | base p prev =>
      rw [run_redirection] at hfin
      obtain rfl := Option.some.inj hfin
      -- the head ends outside quotes: its words are all there, and the file follows them
      have hwords : words (out ++ flush p ++ [.great] ++ flush (some (lit confFile))) =
          (words out ++ p.toList) ++ [lit confFile] := by simp [words]
      rw [hwords] at hcost hwa hwp
      rw [wordCost_append, wordCost_singleton] at hcost
      have hbare : ∀ w ∈ (words out ++ p.toList) ++ [lit confFile], Bare w := by
        simp only [List.forall_mem_append, List.forall_mem_singleton]
        exact ⟨List.forall_mem_append.mp (hacc.bare (by omega)), hconf.bare⟩
      exact ⟨(hbare wa hwa).plainWord hea, (hbare wp hwp).plainWord hep⟩
  | esc p prev =>
      rw [run_redirection_esc] at hfin
      obtain rfl := Option.some.inj hfin
      have hwords : words (out ++ [.word (p.getD [] ++ [(32, true)]), .great] ++
          flush (some (lit confFile))) =
            words out ++ [p.getD [] ++ [(32, true)]] ++ [lit confFile] := by simp [words]
      rw [hwords] at hcost hwp
      simp only [wordCost_append, wordCost_singleton, List.length_append, List.length_singleton,
        length_getD] at hcost
      -- the head ends in a backslash, which makes the blank behind it part of the passphrase
      have hbare := hacc.bare_esc (by omega)
      have h92 := backslash_of_head (getLast?_of_esc (passphraseHead_ne_nil ap pwd) hrun)
      rw [expand_eq hep] at h92
      exact absurd h92 (no_backslash hbare wp hwp)
  | comment =>
      obtain rfl := Option.some.inj hfin
      have hle := hacc.le
      simp only [St.cost, Mode.pending, Mode.spent, Option.elim] at hle
      simp only at hcost
      omega
  | squote _ | dquote _ | dqEsc _ => cases hfin

/-! ## Both calls -/

section Line

variable {α : Type} {x : Act α} {w : World}

/-- A line that fits its buffer is handed to the shell; else the behaviour is undefined. -/
theorem run_line (size : Nat) (line : List UInt8) (x : Act α) (w : World) :
    (sprintfCmd size line >>= fun l => system l >>= fun _ => x) w =
      if line.length < size then x { w with commands := w.commands ++ [line] }
      else .error .undefined w := by
  unfold sprintfCmd
  split <;> rfl

/-- The action hands lines to the shell and takes none back. -/
def Adds (x : Act α) : Prop :=
  ∀ w a w', x w = .ok a w' → ∃ lines, w'.commands = w.commands ++ lines

theorem adds_pure (a : α) : Adds (pure a : Act α) := by
  intro w b w' h
  cases h
  exact ⟨[], (List.append_nil _).symm⟩

theorem Adds.cons (hx : Adds x) (size : Nat) (line : List UInt8) :
    Adds (sprintfCmd size line >>= fun l => system l >>= fun _ => x) := by
  intro w a w' h
  rw [run_line] at h
  split at h
  · obtain ⟨lines, hlines⟩ := hx _ _ _ h
    exact ⟨line :: lines, by rw [hlines, List.append_assoc, List.singleton_append]⟩
  · cases h

/-- An action that begins with a line runs what that line means, and then what the rest runs. -/
theorem runs_line_iff (size : Nat) (line : List UInt8) (hx : Adds x) {m : List Cmd}
    {ms : List (List Cmd)} :
    Runs (sprintfCmd size line >>= fun l => system l >>= fun _ => x) w (m :: ms) ↔
      line.length < size ∧ meaning line = some m ∧
        Runs x { w with commands := w.commands ++ [line] } ms := by
  by_cases hfit : line.length < size
  · constructor
    · rintro ⟨a, w', lines, hrun, hlines, hmeant⟩
      rw [run_line, if_pos hfit] at hrun
      obtain ⟨rest, hrest⟩ := hx _ _ _ hrun
      have hsplit : lines = line :: rest := by
        rw [hrest, List.append_assoc, List.append_cancel_left_eq] at hlines
        exact hlines.symm
      rw [hsplit, List.map_cons, List.map_cons, List.cons.injEq] at hmeant
      exact ⟨hfit, hmeant.1, a, w', rest, hrun, hrest, hmeant.2⟩
    · rintro ⟨-, hm, a, w', rest, hrun, hrest, hmeant⟩
      refine ⟨a, w', line :: rest, ?_, ?_, ?_⟩
      · rw [run_line, if_pos hfit]
        exact hrun
      · rw [hrest, List.append_assoc, List.singleton_append]
      · rw [List.map_cons, List.map_cons, hm, hmeant]
  · constructor
    · rintro ⟨a, w', lines, hrun, -⟩
      rw [run_line, if_neg hfit] at hrun
      cases hrun
    · exact fun h => absurd h.1 hfit

theorem runs_pure (a : α) (w : World) : Runs (pure a : Act α) w [] :=
  ⟨a, w, [], rfl, (List.append_nil _).symm, rfl⟩

theorem runs_congr {y : Act α} (h : x w = y w) (ms : List (List Cmd)) :
    Runs x w ms ↔ Runs y w ms := by
  rw [Runs, Runs, h]

end Line

theorem runs_connectApTo_iff {ap pwd : List UInt8} {w : World} {m₁ m₂ m₃ : List Cmd} :
    Runs (connectApTo ap pwd) w [m₁, m₂, m₃] ↔
      ((passphraseCmd ap pwd).length < 128 ∧ (supplicantCmd w.dev).length < 128 ∧
        (dhclientCmd w.dev).length < 128) ∧
      meaning (passphraseCmd ap pwd) = some m₁ ∧ meaning (supplicantCmd w.dev) = some m₂ ∧
        meaning (dhclientCmd w.dev) = some m₃ := by
  have hzero := adds_pure (0 : Int)
  have hdhclient := hzero.cons 128 (dhclientCmd w.dev)
  have hsupplicant := hdhclient.cons 128 (supplicantCmd w.dev)
  have hfirst : Runs (connectApTo ap pwd) w [m₁, m₂, m₃] ↔ _ :=
    runs_line_iff 128 (passphraseCmd ap pwd) hsupplicant
  rw [hfirst, runs_line_iff _ _ hdhclient, runs_line_iff _ _ hzero]
  constructor
  · rintro ⟨h₁, hm₁, h₂, hm₂, h₃, hm₃, -⟩
    exact ⟨⟨h₁, h₂, h₃⟩, hm₁, hm₂, hm₃⟩
  · rintro ⟨⟨h₁, h₂, h₃⟩, hm₁, hm₂, hm₃⟩
    exact ⟨h₁, hm₁, h₂, hm₂, h₃, hm₃, runs_pure 0 _⟩

/-- Without a name in the record `GetSsid` asks the shell. -/
theorem getSsid_asks {w : World} (h : cstr w.fields.wifi.mem Member.ssid.off = [])
    (out : List UInt8) :
    getSsid (some out) w =
      (sprintfCmd 64 (linkCmd w.dev) >>= fun l => system l >>= fun _ =>
        (pure (readLink (List.replicate 256 0) [] out) : Act (List UInt8))) w := by
  have hread : getSsid (some out) w =
      (if cstr w.fields.wifi.mem Member.ssid.off ≠ [] then
        (pure (cstr w.fields.wifi.mem Member.ssid.off) : Act (List UInt8))
      else sprintfCmd 64 (linkCmd w.dev) >>= fun l => system l >>= fun _ =>
        pure (readLink (List.replicate 256 0) (cstr w.fields.wifi.mem Member.ssid.off) out)) w :=
    rfl
  rw [hread, if_neg (not_not_intro h), h]

theorem getSsid_fallback {w : World} (h : cstr w.fields.wifi.mem Member.ssid.off = [])
    (out : List UInt8) :
    getSsid (some out) w =
      if (linkCmd w.dev).length < 64 then
        .ok (readLink (List.replicate 256 0) [] out)
          { w with commands := w.commands ++ [linkCmd w.dev] }
      else .error .undefined w := by
  rw [getSsid_asks h, run_line]
  rfl

theorem runs_getSsid_iff {w : World} (h : cstr w.fields.wifi.mem Member.ssid.off = [])
    {out : List UInt8} {m : List Cmd} :
    Runs (getSsid (some out)) w [m] ↔
      (linkCmd w.dev).length < 64 ∧ meaning (linkCmd w.dev) = some m := by
  rw [runs_congr (getSsid_asks h out), runs_line_iff _ _ (adds_pure _)]
  constructor
  · exact fun ⟨hfit, hm, _⟩ => ⟨hfit, hm⟩
  · exact fun ⟨hfit, hm⟩ => ⟨hfit, hm, runs_pure _ _⟩

theorem passphraseCmd_length (ap pwd : List UInt8) :
    (passphraseCmd ap pwd).length = (cText ap).length + (cText pwd).length + 43 := by
  simp [passphraseCmd, ascii]
  omega

theorem supplicantCmd_length (dev : List UInt8) :
    (supplicantCmd dev).length = (cText dev).length + 49 := by
  simp [supplicantCmd, ascii]

theorem dhclientCmd_length (dev : List UInt8) :
    (dhclientCmd dev).length = (cText dev).length + 9 := by
  simp [dhclientCmd, ascii]

theorem linkCmd_length (dev : List UInt8) : (linkCmd dev).length = (cText dev).length + 20 := by
  simp [linkCmd, ascii]

/-- The lines mean what is intended exactly when they fit and the three texts
stand for themselves. -/
theorem commandsMeant_iff (dev ap pwd : List UInt8) :
    CommandsMeant dev ap pwd ↔
      ap.length + pwd.length ≤ 84 ∧ dev.length ≤ 43 ∧
        PlainWord ap ∧ PlainWord pwd ∧ PlainWord dev := by
  constructor
  · intro h
    have hempty : cstr WifiMsg.init.mem Member.ssid.off = [] := by decide
    obtain ⟨hconnect, hssid⟩ := h { dev } rfl
    obtain ⟨⟨h₁, -, -⟩, hm₁, -, hm₃⟩ := runs_connectApTo_iff.mp hconnect
    obtain ⟨h₄, -⟩ := (runs_getSsid_iff hempty).mp (hssid hempty [])
    obtain ⟨hap, hpwd⟩ := plain_of_passphrase hm₁
    have hdev := plain_of_dhclient hm₃
    rw [passphraseCmd_length, cText_plain hap, cText_plain hpwd] at h₁
    rw [linkCmd_length, cText_plain hdev] at h₄
    change dev.length + 20 < 64 at h₄
    exact ⟨by omega, by omega, hap, hpwd, hdev⟩
  · rintro ⟨hlen, hdevlen, hap, hpwd, hdev⟩ w rfl
    constructor
    · refine runs_connectApTo_iff.mpr ⟨⟨?_, ?_, ?_⟩, passphrase_meaning hap hpwd,
        supplicant_meaning hdev, dhclient_meaning hdev⟩
      · rw [passphraseCmd_length, cText_plain hap, cText_plain hpwd]
        omega
      · rw [supplicantCmd_length, cText_plain hdev]
        omega
      · rw [dhclientCmd_length, cText_plain hdev]
        omega
    · intro hempty out
      refine (runs_getSsid_iff hempty).mpr ⟨?_, link_meaning hdev⟩
      rw [linkCmd_length, cText_plain hdev]
      omega

/-- A network name with a blank in it is two arguments. -/
theorem my_home_not_meant :
    ¬ CommandsMeant (ascii "wlan0") (ascii "my home") (ascii "password1") := by
  intro h
  have hm := (runs_connectApTo_iff.mp (h { dev := ascii "wlan0" } rfl).1).2.1
  have htwo : meaning (passphraseCmd (ascii "my home") (ascii "password1")) =
      some [⟨[ascii "wpa_passphrase", ascii "my", ascii "home", ascii "password1"],
        [confFile]⟩] := by decide +kernel
  cases htwo.symm.trans hm

end Nl80211.Wifi
