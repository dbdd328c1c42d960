/-
# Nl80211.Lib.Shell — what a POSIX shell makes of a command line.

The token rules of the shell over octets: blanks end words, quotes and the backslash make characters
literal, `|` and `>` are operators, `#` at the start of a token begins a comment.  `meaning` is the
pipeline a line stands for: for each command its arguments and the files its output goes to.  It is
`none` when the line is anything else, or when what it does depends on the environment: on variables
and other commands (`$`, the backquote), on home directories (`~`), on the files there are
(patterns).

A plain word stands for itself, and a line of plain words and operators with blanks between them is
read as these (`lex_spaced`).
-/
import Nl80211.Lib.Bytes

namespace Nl80211.Lib.Shell

open Bytes

/-! ## Characters -/

/-- The part an octet plays outside quotes. -/
inductive Kind where
  | newline | blank | squote | dquote | backslash
  /-- `$` and the backquote -/
  | expansion
  | bar | great | hash
  /-- the zero octet and the operators `&`, `(`, `)`, `;`, `<` -/
  | other
  | plain
  deriving DecidableEq, Repr

/-- The kind of an octet. -/
def kind (c : UInt8) : Kind :=
  if c = 10 then .newline
  else if c = 9 ∨ c = 32 then .blank
  else if c = 39 then .squote
  else if c = 34 then .dquote
  else if c = 92 then .backslash
  else if c = 36 ∨ c = 96 then .expansion
  else if c = 124 then .bar
  else if c = 62 then .great
  else if c = 35 then .hash
  else if c = 0 ∨ c = 38 ∨ c = 40 ∨ c = 41 ∨ c = 59 ∨ c = 60 then .other
  else .plain

/-- A word: its octets, each with whether it was quoted. -/
abbrev QWord := List (UInt8 × Bool)

/-- A word none of which is quoted. -/
def lit (s : List UInt8) : QWord := s.map fun c => (c, false)

/-- A token of the line. -/
inductive Token where
  | word (w : QWord)
  | pipe
  | great
  deriving DecidableEq, Repr

/-! ## Tokens -/

/-- Where in a line the shell is. -/
inductive Mode where
  /-- outside quotes, in a word or not; `prev` is the operator the octet before belongs to -/
  | base (pending : Option QWord) (prev : Option Token)
  /-- behind a backslash outside quotes -/
  | esc (pending : Option QWord) (prev : Option Token)
  | squote (w : QWord)
  | dquote (w : QWord)
  /-- behind a backslash in double quotes -/
  | dqEsc (w : QWord)
  | comment
  deriving DecidableEq, Repr

/-- The tokens completed so far, and the mode. -/
structure St where
  out : List Token
  mode : Mode
  deriving DecidableEq, Repr

/-- The word in progress, if there is one, as a token. -/
def flush (pending : Option QWord) : List Token := pending.toList.map .word

/-- The digits in front of a redirection name a file descriptor. -/
def ioNumber (pending : Option QWord) : Bool :=
  match pending with
  | some w => w ≠ [] && w.all fun x => 48 ≤ x.1 && x.1 ≤ 57 && !x.2
  | none => false

/-- One octet; `none` where the line leaves what is modelled. -/
def step (s : St) (c : UInt8) : Option St :=
  match s.mode with
  | .base p prev =>
      match kind c with
      | .newline | .expansion | .other => none
      | .blank => some ⟨s.out ++ flush p, .base none none⟩
      | .squote => some ⟨s.out, .squote (p.getD [])⟩
      | .dquote => some ⟨s.out, .dquote (p.getD [])⟩
      | .backslash => some ⟨s.out, .esc p prev⟩
      | .bar =>
          if prev.isSome then none
          else some ⟨s.out ++ flush p ++ [.pipe], .base none (some .pipe)⟩
      -- `>>` and `2>` are left out
      | .great =>
          if prev = some .great ∨ ioNumber p = true then none
          else some ⟨s.out ++ flush p ++ [.great], .base none (some .great)⟩
      -- a comment only where a word would begin
      | .hash =>
          match p with
          | none => some ⟨s.out, .comment⟩
          | some w => some ⟨s.out, .base (some (w ++ [(c, false)])) none⟩
      | .plain => some ⟨s.out, .base (some (p.getD [] ++ [(c, false)])) none⟩
  | .esc p prev =>
      if kind c = .newline then some ⟨s.out, .base p prev⟩
      else some ⟨s.out, .base (some (p.getD [] ++ [(c, true)])) none⟩
  | .squote w =>
      if kind c = .squote then some ⟨s.out, .base (some w) none⟩
      else some ⟨s.out, .squote (w ++ [(c, true)])⟩
  | .dquote w =>
      match kind c with
      | .dquote => some ⟨s.out, .base (some w) none⟩
      | .backslash => some ⟨s.out, .dqEsc w⟩
      | .expansion => none
      | _ => some ⟨s.out, .dquote (w ++ [(c, true)])⟩
  | .dqEsc w =>
      match kind c with
      | .newline => some ⟨s.out, .dquote w⟩
      | .dquote | .backslash | .expansion => some ⟨s.out, .dquote (w ++ [(c, true)])⟩
      -- a backslash quotes nothing else and stays
      | _ => some ⟨s.out, .dquote (w ++ [(92, true), (c, true)])⟩
  | .comment => if kind c = .newline then none else some s

/-- A piece of a line. -/
def run : St → List UInt8 → Option St
  | s, [] => some s
  | s, c :: t => (step s c).bind fun s => run s t

/-- The end of the line. -/
def finish (s : St) : Option (List Token) :=
  match s.mode with
  | .base p _ => some (s.out ++ flush p)
  | .comment => some s.out
  | _ => none

/-- Before the first octet. -/
def start : St := ⟨[], .base none none⟩

/-- The tokens of a line. -/
def lex (line : List UInt8) : Option (List Token) := (run start line).bind finish

/-! ## Words -/

/-- Behind `[` and its first octet: a `]` that is not quoted, before any `/`. -/
def bracketEnds : QWord → Bool
  | [] => false
  | (c, q) :: w => if c = 47 then false else if c = 93 ∧ q = false then true else bracketEnds w

/-- Behind `[`: an expression and its `]`. -/
def isBracket (w : QWord) : Bool :=
  match (if w.head? = some (33, false) then w.tail else w) with
  | [] => false
  | (c, _) :: w => c ≠ 47 && bracketEnds w

/-- The word is a pattern: it holds `*`, `?` or a bracket expression, not quoted. -/
def isPattern : QWord → Bool
  | [] => false
  | (c, q) :: w =>
      (!q && (c = 42 || c = 63 || (c = 91 && isBracket w))) || isPattern w

/-- The word begins with a `~` that stands for a home directory. -/
def isTilde (w : QWord) : Bool :=
  w.head? = some (126, false) && (w.takeWhile fun x => x ≠ (47, false)).all fun x => !x.2

/-- The text of a word; `none` when it depends on the environment. -/
def expand (w : QWord) : Option (List UInt8) :=
  if isTilde w || isPattern w then none else some (w.map Prod.fst)

/-! ## Commands -/

/-- One command of a pipeline: its arguments, the first of which is the program, and the files its
output is redirected to. -/
structure Cmd where
  argv : List (List UInt8) := []
  outs : List (List UInt8) := []
  deriving DecidableEq, Repr

/-- Put an argument in front of those of the first command. -/
def addArg (a : List UInt8) : List Cmd → List Cmd
  | [] => []
  | c :: cs => { c with argv := a :: c.argv } :: cs

/-- Put a file in front of those of the first command. -/
def addOut (a : List UInt8) : List Cmd → List Cmd
  | [] => []
  | c :: cs => { c with outs := a :: c.outs } :: cs

/-- The commands that a list of tokens stands for. -/
def parse : List Token → Option (List Cmd)
  | [] => some [{}]
  | .word w :: ts => (expand w).bind fun a => (parse ts).map (addArg a)
  | .great :: .word w :: ts => (expand w).bind fun a => (parse ts).map (addOut a)
  | .great :: _ => none
  | .pipe :: ts => (parse ts).map ({} :: ·)

/-- The reserved words. -/
def reserved : List (List UInt8) :=
  ["!", "\x7b", "\x7d", "case", "do", "done", "elif", "else", "esac", "fi", "for",
    "if", "in", "then",
    "until", "while"].map ascii

/-- The command runs a program: it has a first word, and that is neither reserved
nor an assignment. -/
def Cmd.runs (c : Cmd) : Bool :=
  match c.argv with
  | [] => false
  | name :: _ => name ∉ reserved && 61 ∉ name

/-- What a command line does. -/
def meaning (line : List UInt8) : Option (List Cmd) :=
  ((lex line).bind parse).filter fun cs => cs.all Cmd.runs

/-! ## Plain words -/

/-- `#` and the backslash are the only octets of their kinds. -/
theorem eq_of_kind (c : UInt8) :
    (kind c = .hash → c = 35) ∧ (kind c = .backslash → c = 92) := by
  unfold kind
  repeat' split
  all_goals simp_all

theorem run_append (s : St) (a b : List UInt8) :
    run s (a ++ b) = (run s a).bind fun s => run s b := by
  induction a generalizing s with
  | nil => rfl
  | cons c a ih =>
      simp only [List.cons_append, run]
      cases step s c with
      | none => rfl
      | some s' => exact ih s'

@[simp] theorem map_fst_lit (s : List UInt8) : (lit s).map Prod.fst = s := by
  simp [lit, Function.comp_def]

theorem head?_lit (s : List UInt8) : (lit s).head? = s.head?.map fun c => (c, false) := by
  simp [lit]

theorem isTilde_lit (s : List UInt8) : isTilde (lit s) = decide (s.head? = some 126) := by
  have hall : ∀ p, ((lit s).takeWhile p).all fun x => !x.2 := by
    intro p
    apply List.all_eq_true.mpr
    intro x hx
    obtain ⟨c, _, rfl⟩ := List.mem_map.mp ((List.takeWhile_sublist p).subset hx)
    rfl
  rw [isTilde, hall, Bool.and_true, head?_lit]
  cases s <;> simp

theorem expand_lit (s : List UInt8) :
    expand (lit s) = if s.head? = some 126 ∨ isPattern (lit s) = true then none else some s := by
  simp [expand, isTilde_lit]

/-- A word that stands for itself: it begins no comment and names no home directory, none of its
octets plays a part in the line, and it is no pattern. -/
structure PlainWord (s : List UInt8) : Prop where
  nonempty : s ≠ []
  noComment : s.head? ≠ some 35
  noTilde : s.head? ≠ some 126
  octets : ∀ c ∈ s, kind c = .plain ∨ kind c = .hash
  noPattern : isPattern (lit s) = false

/-- Whether a word is plain. -/
def isPlain (s : List UInt8) : Bool :=
  s ≠ [] && s.head? ≠ some 35 && s.head? ≠ some 126 &&
    (s.all fun c => kind c = .plain || kind c = .hash) && !isPattern (lit s)

theorem isPlain_iff (s : List UInt8) : isPlain s = true ↔ PlainWord s := by
  simp only [isPlain, Bool.and_eq_true, decide_eq_true_eq, List.all_eq_true, Bool.or_eq_true,
    Bool.not_eq_true']
  constructor
  · rintro ⟨⟨⟨⟨h₁, h₂⟩, h₃⟩, h₄⟩, h₅⟩
    exact ⟨h₁, h₂, h₃, h₄, h₅⟩
  · intro h
    exact ⟨⟨⟨⟨h.nonempty, h.noComment⟩, h.noTilde⟩, h.octets⟩, h.noPattern⟩

instance (s : List UInt8) : Decidable (PlainWord s) := decidable_of_iff _ (isPlain_iff s)

theorem PlainWord.expand {s : List UInt8} (h : PlainWord s) : expand (lit s) = some s := by
  simp [expand_lit, h.noTilde, h.noPattern]

theorem run_typed {s : List UInt8} (h : ∀ c ∈ s, kind c = .plain ∨ kind c = .hash)
    (out : List Token) (w : QWord) :
    run ⟨out, .base (some w) none⟩ s = some ⟨out, .base (some (w ++ lit s)) none⟩ := by
  induction s generalizing w with
  | nil => simp [run, lit]
  | cons c s ih =>
      obtain ⟨hc, hs⟩ := List.forall_mem_cons.mp h
      have hstep : step ⟨out, .base (some w) none⟩ c =
          some ⟨out, .base (some (w ++ [(c, false)])) none⟩ := by
        rcases hc with hc | hc <;> simp [step, hc]
      rw [run, hstep, Option.bind_some, ih hs, List.append_assoc]
      rfl

/-- A plain word is read as one word. -/
theorem run_plain {s : List UInt8} (h : PlainWord s) (out : List Token) (prev : Option Token) :
    run ⟨out, .base none prev⟩ s = some ⟨out, .base (some (lit s)) none⟩ := by
  obtain ⟨c, s, rfl⟩ := List.exists_cons_of_ne_nil h.nonempty
  obtain ⟨hc, hs⟩ := List.forall_mem_cons.mp h.octets
  have hstep : step ⟨out, .base none prev⟩ c = some ⟨out, .base (some [(c, false)]) none⟩ := by
    rcases hc with hc | hc
    · simp [step, hc]
    · exact absurd (by rw [List.head?_cons, (eq_of_kind c).1 hc]) h.noComment
  rw [run, hstep, Option.bind_some, run_typed hs]
  rfl

/-! ## Lines with blanks in them -/

/-- What a token is written as, if nothing is quoted. -/
def Token.text : Token → List UInt8
  | .word w => w.map Prod.fst
  | .pipe => [124]
  | .great => [62]

/-- An operator or a plain word. -/
def Token.Plain : Token → Prop
  | .word w => ∃ s, w = lit s ∧ PlainWord s
  | _ => True

/-- The tokens with a blank between each two. -/
def spaced : List Token → List UInt8
  | [] => []
  | [t] => t.text
  | t :: ts => t.text ++ 32 :: spaced ts

/-- Behind a token the shell is outside quotes and holds it. -/
theorem run_token {t : Token} (h : t.Plain) (out : List Token) :
    ∃ out' p prev, run ⟨out, .base none none⟩ t.text = some ⟨out', .base p prev⟩ ∧
      out' ++ flush p = out ++ [t] := by
  cases t with
  | word w =>
      obtain ⟨s, rfl, hs⟩ := h
      exact ⟨out, some (lit s), none, by rw [Token.text, map_fst_lit, run_plain hs], rfl⟩
  | pipe =>
      refine ⟨out ++ [.pipe], none, some .pipe, ?_, by simp [flush]⟩
      simp [Token.text, run, step, kind, flush]
  | great =>
      refine ⟨out ++ [.great], none, some .great, ?_, by simp [flush]⟩
      simp [Token.text, run, step, kind, flush, ioNumber]

theorem run_spaced {ts : List Token} (h : ∀ t ∈ ts, t.Plain) (out : List Token) :
    (run ⟨out, .base none none⟩ (spaced ts)).bind finish = some (out ++ ts) := by
  induction ts using spaced.induct generalizing out with
  | case1 => simp [spaced, run, finish, flush]
  | case2 t =>
      obtain ⟨out', p, prev, hrun, he⟩ := run_token (h t (by simp)) out
      rw [spaced, hrun, Option.bind_some, ← he]
      rfl
  | case3 t ts hne ih =>
      obtain ⟨out', p, prev, hrun, he⟩ := run_token (h t (by simp)) out
      have hblank : step ⟨out', .base p prev⟩ 32 = some ⟨out ++ [t], .base none none⟩ := by
        rw [← he]
        rfl
      rw [spaced, run_append, hrun, Option.bind_some, run, hblank, Option.bind_some,
        ih (fun t ht => h t (by simp [ht])), List.append_assoc, List.singleton_append]
      exact hne

/-- Plain words and operators with blanks between them are read as these. -/
theorem lex_spaced {ts : List Token} (h : ∀ t ∈ ts, t.Plain) : lex (spaced ts) = some ts :=
  run_spaced h []

/-! ## The meaning of such a line -/

/-- The token of a word in which nothing is quoted. -/
def wordOf (s : List UInt8) : Token := .word (lit s)

theorem plain_wordOf {s : List UInt8} (h : PlainWord s) : (wordOf s).Plain := ⟨s, rfl, h⟩

@[simp] theorem plain_great : Token.great.Plain := trivial

@[simp] theorem plain_pipe : Token.pipe.Plain := trivial

@[simp] theorem text_wordOf (s : List UInt8) : (wordOf s).text = s := map_fst_lit s

@[simp] theorem text_great : Token.great.text = [62] := rfl

@[simp] theorem text_pipe : Token.pipe.text = [124] := rfl

theorem parse_wordOf {s : List UInt8} (h : PlainWord s) (ts : List Token) :
    parse (wordOf s :: ts) = (parse ts).map (addArg s) := by
  simp [wordOf, parse, h.expand]

theorem parse_great_wordOf {s : List UInt8} (h : PlainWord s) (ts : List Token) :
    parse (.great :: wordOf s :: ts) = (parse ts).map (addOut s) := by
  simp [wordOf, parse, h.expand]

theorem meaning_spaced {ts : List Token} {cs : List Cmd} (h : ∀ t ∈ ts, t.Plain)
    (hp : parse ts = some cs) (hr : cs.all Cmd.runs = true) : meaning (spaced ts) = some cs := by
  rw [meaning, lex_spaced h, Option.bind_some, hp]
  exact Option.filter_some_pos hr

end Nl80211.Lib.Shell
