/-
# Nl80211.Lib.ShellAccount — what the words of a line cost.

Every octet of a word costs an octet of the line, every word one more for what ends it, and every
quote and backslash costs octets that are in no word.  A line that is no longer than its words cost
therefore quotes nothing (`Account.bare`).  Parsing uses every word once, so the arguments and files
of a pipeline say what its words have cost (`parse_uses`).
-/
import Nl80211.Lib.Shell

namespace Nl80211.Lib.Shell

open Bytes

/-! ## Words and their cost -/

/-- The words among the tokens. -/
def words : List Token → List QWord
  | [] => []
  | .word w :: ts => w :: words ts
  | _ :: ts => words ts

@[simp] theorem words_append (a b : List Token) : words (a ++ b) = words a ++ words b := by
  induction a with
  | nil => rfl
  | cons t a ih => cases t <;> simp [words, ih]

@[simp] theorem words_flush (p : Option QWord) : words (flush p) = p.toList := by
  cases p <;> rfl

/-- What words cost in a line: their octets and, for each, one that ends it. -/
def wordCost (ws : List QWord) : Nat := (ws.map fun w => w.length + 1).sum

@[simp] theorem wordCost_append (a b : List QWord) :
    wordCost (a ++ b) = wordCost a + wordCost b := by
  simp [wordCost]

@[simp] theorem wordCost_singleton (w : QWord) : wordCost [w] = w.length + 1 := rfl

/-- A word that is typed as it is: it is not empty, begins no comment, and none of its octets is
quoted or plays a part in the line. -/
structure Bare (w : QWord) : Prop where
  nonempty : w ≠ []
  noComment : w.head?.map Prod.fst ≠ some 35
  octets : ∀ x ∈ w, x.2 = false ∧ (kind x.1 = .plain ∨ kind x.1 = .hash)

/-- The word in progress. -/
def Mode.pending : Mode → Option QWord
  | .base p _ | .esc p _ => p
  | .squote w | .dquote w | .dqEsc w => some w
  | .comment => none

/-- The octets that the quotes and backslashes open at this point have cost, and the `#`. -/
def Mode.spent : Mode → Nat
  | .base _ _ => 0
  | .esc _ _ | .squote _ | .dquote _ | .comment => 1
  | .dqEsc _ => 2

/-- Inside quotes. -/
def Mode.Quotes : Mode → Prop
  | .squote _ | .dquote _ | .dqEsc _ => True
  | _ => False

/-- What the words so far have cost. -/
def St.cost (s : St) : Nat := wordCost (words s.out) + (s.mode.pending.elim 0 List.length)

/-- Every word so far is typed as it is. -/
def St.AllBare (s : St) : Prop := ∀ w ∈ words s.out ++ s.mode.pending.toList, Bare w

/-- The account after `n` octets: the words have cost no more than that, and if nothing is left over
they are typed as they are. -/
structure Account (n : Nat) (s : St) : Prop where
  le : s.cost + s.mode.spent ≤ n
  tight : s.cost + s.mode.spent = n → ¬ s.mode.Quotes → s.AllBare

theorem Bare.snoc {w : QWord} {c : UInt8} (hw : Bare w) (hc : kind c = .plain ∨ kind c = .hash) :
    Bare (w ++ [(c, false)]) where
  nonempty := by simp
  noComment := by
    obtain ⟨x, w', rfl⟩ := List.exists_cons_of_ne_nil hw.nonempty
    exact hw.noComment
  octets x hx := by
    rcases List.mem_append.mp hx with hx | hx
    · exact hw.octets x hx
    · obtain rfl := List.mem_singleton.mp hx
      exact ⟨rfl, hc⟩

theorem Bare.single {c : UInt8} (hc : kind c = .plain) : Bare [(c, false)] where
  nonempty := by simp
  noComment := by
    rintro h
    obtain rfl : c = 35 := by simpa using h
    cases hc
  octets x hx := by
    obtain rfl := List.mem_singleton.mp hx
    exact ⟨rfl, .inl hc⟩

theorem length_getD (p : Option QWord) : (p.getD []).length = p.elim 0 List.length := by
  cases p <;> rfl

/-- What ends a word leaves the words as they are. -/
theorem Account.ended {n : Nat} {out : List Token} {p : Option QWord} {prev prev' : Option Token}
    {ts : List Token} (hts : words ts = []) (h : Account n ⟨out, .base p prev⟩) :
    Account (n + 1) ⟨out ++ flush p ++ ts, .base none prev'⟩ := by
  have hle := h.le
  have htight := h.tight
  cases p with
  | none =>
      simp only [St.cost, Mode.pending, Mode.spent, Option.elim] at hle
      constructor
      · simp [St.cost, Mode.pending, Mode.spent, flush, hts]
        omega
      · intro he
        simp [St.cost, Mode.pending, Mode.spent, flush, hts] at he
        omega
  | some w =>
      simp only [St.cost, Mode.pending, Mode.spent, Option.elim] at hle htight
      constructor
      · simp [St.cost, Mode.pending, Mode.spent, hts]
        omega
      · intro he _
        simp [St.cost, Mode.pending, Mode.spent, hts] at he
        have hb := htight (by omega) id
        simpa [St.AllBare, Mode.pending, hts] using hb

/-- An octet that is typed as it is makes the word in progress one longer. -/
theorem Account.typed {n : Nat} {out : List Token} {p : Option QWord} {prev prev' : Option Token}
    {c : UInt8} (hc : kind c = .plain ∨ kind c = .hash ∧ p ≠ none)
    (h : Account n ⟨out, .base p prev⟩) :
    Account (n + 1) ⟨out, .base (some (p.getD [] ++ [(c, false)])) prev'⟩ := by
  have hle := h.le
  have htight := h.tight
  simp only [St.cost, Mode.pending, Mode.spent] at hle htight
  constructor
  · simp [St.cost, Mode.pending, Mode.spent, length_getD]
    omega
  · intro he _
    simp [St.cost, Mode.pending, Mode.spent, length_getD] at he
    have hb := htight (by omega) id
    simp only [St.AllBare, Mode.pending, List.mem_append] at hb ⊢
    rintro w (hw | hw)
    · exact hb w (.inl hw)
    · obtain rfl : w = p.getD [] ++ [(c, false)] := by simpa using hw
      cases p with
      | none => exact .single (by simpa using hc)
      | some w => exact (hb w (.inr (by simp))).snoc (hc.imp_right And.left)

/-- An octet was spent on something else than a word. -/
theorem Account.slack {n : Nat} {s : St} (h : s.cost + s.mode.spent < n) : Account n s :=
  ⟨Nat.le_of_lt h, fun he => absurd he (Nat.ne_of_lt h)⟩

/-- Inside quotes only the bound matters. -/
theorem Account.quoted {n : Nat} {s : St} (h : s.cost + s.mode.spent ≤ n) (hq : s.mode.Quotes) :
    Account n s :=
  ⟨h, fun _ hn => absurd hq hn⟩

/-- An octet that opens something and adds to no word. -/
theorem Account.opened {n : Nat} {out : List Token} {p : Option QWord} {prev : Option Token}
    {mode : Mode} (hp : mode.pending = p) (hs : mode.spent = 1)
    (h : Account n ⟨out, .base p prev⟩) : Account (n + 1) ⟨out, mode⟩ := by
  have hle := h.le
  have htight := h.tight
  simp only [St.cost, Mode.pending, Mode.spent] at hle htight
  constructor
  · simp only [St.cost, hp, hs]
    omega
  · intro he _
    simp only [St.cost, hp, hs] at he
    simp only [St.AllBare, hp]
    exact htight (by omega) id

/-- One octet, outside quotes. -/
theorem Account.step_base {n : Nat} {out : List Token} {p : Option QWord} {prev : Option Token}
    {s' : St} {c : UInt8} (h : Account n ⟨out, .base p prev⟩)
    (hs : Shell.step ⟨out, .base p prev⟩ c = some s') : Account (n + 1) s' := by
  have hle := h.le
  simp only [St.cost, Mode.pending, Mode.spent] at hle
  simp only [Shell.step] at hs
  -- the cases are those of `kind c`, in the order of `step`
  split at hs
  case h_1 | h_2 | h_3 => cases hs
  case h_4 =>
      obtain rfl := Option.some.inj hs
      simpa using h.ended (show words [] = [] from rfl)
  -- a quote opens, with the word in progress inside
  case h_5 | h_6 =>
      obtain rfl := Option.some.inj hs
      refine .quoted ?_ trivial
      simpa [St.cost, Mode.pending, Mode.spent, length_getD] using hle
  case h_7 =>
      obtain rfl := Option.some.inj hs
      exact h.opened rfl rfl
  -- `|` and `>` end the word and are tokens of their own
  case h_8 | h_9 =>
      split at hs
      · cases hs
      · obtain rfl := Option.some.inj hs
        exact h.ended rfl
  -- `#` starts a comment between words and is an octet like others inside one
  case h_10 hk =>
      split at hs
      · obtain rfl := Option.some.inj hs
        exact h.opened rfl rfl
      · obtain rfl := Option.some.inj hs
        exact h.typed (.inr ⟨hk, by simp⟩)
  case h_11 hk =>
      obtain rfl := Option.some.inj hs
      exact h.typed (.inl hk)

/-- One octet, anywhere in a line. -/
theorem Account.step {n : Nat} {s s' : St} {c : UInt8} (h : Account n s)
    (hs : step s c = some s') : Account (n + 1) s' := by
  obtain ⟨out, mode⟩ := s
  have hle := h.le
  cases mode with
  | base p prev => exact h.step_base hs
  | esc p prev =>
      simp only [St.cost, Mode.pending, Mode.spent] at hle
      simp only [Shell.step] at hs
      -- the backslash has cost an octet that is in no word
      split at hs
      all_goals
        obtain rfl := Option.some.inj hs
        apply Account.slack
        simp [St.cost, Mode.pending, Mode.spent, length_getD]
        omega
  | squote w =>
      simp only [St.cost, Mode.pending, Mode.spent, Option.elim] at hle
      simp only [Shell.step] at hs
      split at hs
      -- so have the two quotes once the second is read
      · obtain rfl := Option.some.inj hs
        apply Account.slack
        simp [St.cost, Mode.pending, Mode.spent]
        omega
      · obtain rfl := Option.some.inj hs
        refine .quoted ?_ trivial
        simp [St.cost, Mode.pending, Mode.spent]
        omega
  | dquote w =>
      simp only [St.cost, Mode.pending, Mode.spent, Option.elim] at hle
      simp only [Shell.step] at hs
      split at hs
      case h_1 =>
          obtain rfl := Option.some.inj hs
          apply Account.slack
          simp [St.cost, Mode.pending, Mode.spent]
          omega
      case h_3 => cases hs
      all_goals
        obtain rfl := Option.some.inj hs
        refine .quoted ?_ trivial
        simp [St.cost, Mode.pending, Mode.spent]
        omega
  | dqEsc w =>
      simp only [St.cost, Mode.pending, Mode.spent, Option.elim] at hle
      simp only [Shell.step] at hs
      -- at most the backslash and the octet behind it become part of the word
      split at hs
      all_goals
        obtain rfl := Option.some.inj hs
        refine .quoted ?_ trivial
        simp [St.cost, Mode.pending, Mode.spent]
        omega
  | comment =>
      simp only [St.cost, Mode.pending, Mode.spent, Option.elim] at hle
      simp only [Shell.step] at hs
      split at hs
      · cases hs
      · obtain rfl := Option.some.inj hs
        apply Account.slack
        simp [St.cost, Mode.pending, Mode.spent]
        omega

theorem Account.run {n : Nat} {s s' : St} {t : List UInt8} (h : Account n s)
    (hs : run s t = some s') : Account (n + t.length) s' := by
  induction t generalizing n s with
  | nil =>
      obtain rfl := Option.some.inj hs
      exact h
  | cons c t ih =>
      obtain ⟨s₁, h₁, hs⟩ := Option.bind_eq_some_iff.mp hs
      have := ih (h.step h₁) hs
      rwa [Nat.add_assoc, Nat.add_comm 1] at this

theorem account_start : Account 0 start :=
  ⟨Nat.le_refl _, fun _ _ => by simp [St.AllBare, start, words, Mode.pending]⟩

/-- The account of a piece from the beginning of a line. -/
theorem run_account {s : St} {t : List UInt8} (h : run start t = some s) : Account t.length s := by
  simpa using account_start.run h

/-- Words that cost more than the octets read so far, but for what ends the last, quote nothing. -/
theorem Account.bare {n : Nat} {out : List Token} {p : Option QWord} {prev : Option Token}
    (h : Account n ⟨out, .base p prev⟩) (hn : n < wordCost (words out ++ p.toList)) :
    ∀ w ∈ words out ++ p.toList, Bare w := by
  have hle := h.le
  cases p with
  | none =>
      simp [St.cost, Mode.pending, Mode.spent] at hle hn
      omega
  | some w =>
      simp [St.cost, Mode.pending, Mode.spent] at hle hn
      refine h.tight ?_ id
      simp [St.cost, Mode.pending, Mode.spent]
      omega

/-- Behind a backslash there is one octet less. -/
theorem Account.bare_esc {n : Nat} {out : List Token} {p : Option QWord} {prev : Option Token}
    (h : Account n ⟨out, .esc p prev⟩) (hn : n ≤ wordCost (words out) + p.elim 0 List.length + 1) :
    ∀ w ∈ words out ++ p.toList, Bare w :=
  h.tight (Nat.le_antisymm h.le hn) id

theorem step_esc {s : St} {c : UInt8} {out : List Token} {p : Option QWord} {prev : Option Token}
    (h : step s c = some ⟨out, .esc p prev⟩) : c = 92 := by
  refine (eq_of_kind c).2 ?_
  unfold step at h
  repeat' split at h
  all_goals simp_all

/-- Behind a backslash outside quotes, the last octet was a backslash. -/
theorem getLast?_of_esc {s : St} {t : List UInt8} {out : List Token} {p : Option QWord}
    {prev : Option Token} (ht : t ≠ []) (h : run s t = some ⟨out, .esc p prev⟩) :
    t.getLast? = some 92 := by
  obtain ⟨t, c, rfl⟩ := List.eq_nil_or_concat t |>.resolve_left ht
  rw [List.concat_eq_append, run_append] at h
  obtain ⟨s', -, hc⟩ := Option.bind_eq_some_iff.mp h
  obtain ⟨s'', hstep, hrun⟩ := Option.bind_eq_some_iff.mp hc
  obtain rfl := Option.some.inj hrun
  simp [step_esc hstep]

/-! ## Parsing -/

/-- The texts in a pipeline: the arguments and the files. -/
def texts (cs : List Cmd) : List (List UInt8) := cs.flatMap fun c => c.argv ++ c.outs

/-- What texts cost in a line, one octet each for what ends it. -/
def textCost (ts : List (List UInt8)) : Nat := (ts.map fun t => t.length + 1).sum

theorem expand_eq {w : QWord} {t : List UInt8} (h : expand w = some t) : t = w.map Prod.fst := by
  unfold expand at h
  split at h
  · cases h
  · exact (Option.some.inj h).symm

/-- What is parsed uses every word once. -/
structure Uses (ws : List QWord) (cs : List Cmd) : Prop where
  nonempty : cs ≠ []
  cost : textCost (texts cs) = wordCost ws
  from_word : ∀ t ∈ texts cs, ∃ w ∈ ws, expand w = some t

theorem Uses.add {ws : List QWord} {cs cs' : List Cmd} {w : QWord} {a : List UInt8}
    (ha : expand w = some a) (h : Uses ws cs) (hne : cs' ≠ [])
    (hperm : (texts cs').Perm (a :: texts cs)) : Uses (w :: ws) cs' where
  nonempty := hne
  cost := by
    have hl : a.length = w.length := by simp [expand_eq ha]
    have hc := h.cost
    have hp := (hperm.map fun t => t.length + 1).sum_nat
    simp only [textCost, wordCost, List.map_cons, List.sum_cons] at hc hp ⊢
    omega
  from_word t ht := by
    rcases List.mem_cons.mp (hperm.mem_iff.mp ht) with rfl | ht
    · exact ⟨w, by simp, ha⟩
    · obtain ⟨w', hw', he⟩ := h.from_word t ht
      exact ⟨w', by simp [hw'], he⟩

theorem texts_addArg {a : List UInt8} {cs : List Cmd} (h : cs ≠ []) :
    (texts (addArg a cs)).Perm (a :: texts cs) := by
  obtain ⟨c, cs, rfl⟩ := List.exists_cons_of_ne_nil h
  simp [texts, addArg]

theorem texts_addOut {a : List UInt8} {cs : List Cmd} (h : cs ≠ []) :
    (texts (addOut a cs)).Perm (a :: texts cs) := by
  obtain ⟨c, cs, rfl⟩ := List.exists_cons_of_ne_nil h
  simp only [texts, addOut, List.flatMap_cons, List.append_assoc, List.cons_append]
  exact List.perm_middle

theorem addArg_ne_nil {a : List UInt8} {cs : List Cmd} (h : cs ≠ []) : addArg a cs ≠ [] := by
  cases cs with
  | nil => exact absurd rfl h
  | cons => simp [addArg]

theorem addOut_ne_nil {a : List UInt8} {cs : List Cmd} (h : cs ≠ []) : addOut a cs ≠ [] := by
  cases cs with
  | nil => exact absurd rfl h
  | cons => simp [addOut]

theorem parse_uses {ts : List Token} {cs : List Cmd} (h : parse ts = some cs) :
    Uses (words ts) cs := by
  induction ts using parse.induct generalizing cs with
  | case1 =>
      obtain rfl := Option.some.inj h
      exact ⟨by simp, rfl, by simp [texts]⟩
  | case2 w ts ih =>
      simp only [parse, Option.bind_eq_some_iff, Option.map_eq_some_iff] at h
      obtain ⟨a, ha, cs', hcs, rfl⟩ := h
      exact (ih hcs).add ha (addArg_ne_nil (ih hcs).nonempty) (texts_addArg (ih hcs).nonempty)
  | case3 w ts ih =>
      simp only [parse, Option.bind_eq_some_iff, Option.map_eq_some_iff] at h
      obtain ⟨a, ha, cs', hcs, rfl⟩ := h
      exact (ih hcs).add ha (addOut_ne_nil (ih hcs).nonempty) (texts_addOut (ih hcs).nonempty)
  | case4 ts hts =>
      rw [parse] at h
      · cases h
      · exact hts
  | case5 ts ih =>
      simp only [parse, Option.map_eq_some_iff] at h
      obtain ⟨cs', hcs, rfl⟩ := h
      have hu := ih hcs
      exact ⟨by simp, by simpa [texts, words] using hu.cost, by simpa [texts,
        words] using hu.from_word⟩

theorem Bare.eq_lit {w : QWord} (h : Bare w) : w = lit (w.map Prod.fst) := by
  rw [lit, List.map_map]
  refine (List.map_id w).symm.trans (List.map_congr_left fun x hx => ?_)
  exact Prod.ext rfl (h.octets x hx).1

theorem PlainWord.bare {s : List UInt8} (h : PlainWord s) : Bare (lit s) where
  nonempty := by simpa [lit] using h.nonempty
  noComment := by
    rw [head?_lit, Option.map_map]
    simpa [Function.comp_def] using h.noComment
  octets x hx := by
    obtain ⟨c, hc, rfl⟩ := List.mem_map.mp hx
    exact ⟨rfl, h.octets c hc⟩

theorem Bare.kind_of_mem {w : QWord} {c : UInt8} (h : Bare w) (hc : c ∈ w.map Prod.fst) :
    kind c = .plain ∨ kind c = .hash := by
  obtain ⟨x, hx, rfl⟩ := List.mem_map.mp hc
  exact (h.octets x hx).2

theorem Bare.plainWord {w : QWord} {t : List UInt8} (h : Bare w) (he : expand w = some t) :
    PlainWord t := by
  obtain rfl : w = lit t := expand_eq he ▸ h.eq_lit
  have hn := expand_lit t
  rw [he] at hn
  split at hn
  · cases hn
  rename_i hne
  have hc := h.noComment
  rw [head?_lit, Option.map_map] at hc
  exact {
    nonempty := fun h0 => h.nonempty (by rw [h0]; rfl)
    noComment := by simpa [Function.comp_def] using hc
    noTilde := fun h1 => hne (.inl h1)
    octets := fun c hc => (h.octets (c, false) (List.mem_map_of_mem hc)).2
    noPattern := by simpa using fun h2 => hne (.inr h2) }

/-- A line with a meaning is read as words of which its arguments and files use each once. -/
theorem lex_of_meaning {line : List UInt8} {cs : List Cmd} (h : meaning line = some cs) :
    ∃ ts, lex line = some ts ∧ Uses (words ts) cs := by
  obtain ⟨h, -⟩ := Option.filter_eq_some_iff.mp h
  obtain ⟨ts, hlex, hparse⟩ := Option.bind_eq_some_iff.mp h
  exact ⟨ts, hlex, parse_uses hparse⟩

/-- A line in two pieces. -/
theorem lex_append {a b : List UInt8} {ts : List Token} (h : lex (a ++ b) = some ts) :
    ∃ s, run start a = some s ∧ (run s b).bind finish = some ts := by
  rw [lex, run_append, Option.bind_assoc] at h
  exact Option.bind_eq_some_iff.mp h

end Nl80211.Lib.Shell
