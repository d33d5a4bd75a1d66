import Mathlib.Algebra.GroupWithZero.Nat
import Mathlib.Data.List.Basic
import Mathlib.Tactic.Common

/-!
# Quoted literals in SQL text

MySQL's rules for string literals in single quotes: a doubled quote stands
for one, and a backslash with the character after it for another character.
`lex` reads a text as its literals and the characters around them.

A text with literals is put together by `fill` from the values to be quoted
and the text between them. It is read as meant exactly when every value
stands for itself between quotes (`lex_fill_iff`): an escape or a doubled
quote reads back shorter than it was written, so a reading as long as the
text leaves no room for one.
-/

namespace LibuvServer.Lib.SqlText

def quote : UInt8 := 0x27
def backslash : UInt8 := 0x5c
def percent : UInt8 := 0x25
def underscore : UInt8 := 0x5f

inductive Token where
  | char (c : UInt8)
  | literal (value : List UInt8)
  deriving DecidableEq

/-- What a backslash with `c` after it stands for. The two wildcards keep
their backslash, any other character drops it. -/
def unescape (c : UInt8) : List UInt8 :=
  if c = 0x30 then [0]            -- \0
  else if c = 0x62 then [8]       -- \b
  else if c = 0x6e then [10]      -- \n
  else if c = 0x72 then [13]      -- \r
  else if c = 0x74 then [9]       -- \t
  else if c = 0x5a then [26]      -- \Z
  else if c = percent ∨ c = underscore then [backslash, c]
  else [c]

/-- Where the reading of a text stands: outside of literals, in one of which
`value` has been read, after a backslash in it, or after a quote in it, which
ends it or is the first of two. -/
inductive Mode where
  | outside
  | inside (value : List UInt8)
  | escaped (value : List UInt8)
  | quoted (value : List UInt8)

/-- The tokens of a text; `none` when it ends within a literal. -/
def scan : Mode → List UInt8 → Option (List Token)
  | .outside, [] => some []
  | .inside _, [] => none
  | .escaped _, [] => none
  | .quoted value, [] => some [.literal value]
  | .outside, c :: text =>
    if c = quote then scan (.inside []) text
    else (scan .outside text).map (.char c :: ·)
  | .inside value, c :: text =>
    if c = quote then scan (.quoted value) text
    else if c = backslash then scan (.escaped value) text
    else scan (.inside (value ++ [c])) text
  | .escaped value, c :: text => scan (.inside (value ++ unescape c)) text
  | .quoted value, c :: text =>
    if c = quote then scan (.inside (value ++ [quote])) text
    else (scan .outside text).map fun tokens => .literal value :: .char c :: tokens

def lex (text : List UInt8) : Option (List Token) := scan .outside text

/-- The value stands for itself between quotes: it has no quote, and no
backslash but in front of a wildcard. -/
def Verbatim : List UInt8 → Prop
  | [] => True
  | [c] => c ≠ quote ∧ c ≠ backslash
  | c :: d :: rest =>
    if c = backslash then (d = percent ∨ d = underscore) ∧ Verbatim rest
    else c ≠ quote ∧ Verbatim (d :: rest)

/-- `front`, and then every value in quotes with the text after it. -/
def fill (front : List UInt8) : List (List UInt8 × List UInt8) → List UInt8
  | [] => front
  | (value, text) :: places => front ++ quote :: (value ++ quote :: fill text places)

/-- The tokens `fill` means. -/
def meant (front : List UInt8) : List (List UInt8 × List UInt8) → List Token
  | [] => front.map .char
  | (value, text) :: places => front.map .char ++ .literal value :: meant text places

/-! ## Reading what was filled in -/

theorem Verbatim.append {v w : List UInt8} (hv : Verbatim v) (hw : Verbatim w) :
    Verbatim (v ++ w) := by
  fun_induction Verbatim v with
  | case1 => exact hw
  | case2 c =>
    cases w with
    | nil => exact hv
    | cons d rest =>
      show Verbatim (c :: d :: rest)
      rw [Verbatim, if_neg hv.2]
      exact ⟨hv.1, hw⟩
  | case3 d rest ih =>
    show Verbatim (backslash :: d :: (rest ++ w))
    rw [Verbatim, if_pos rfl]
    exact ⟨hv.1, ih hv.2⟩
  | case4 c d rest hc ih =>
    show Verbatim (c :: d :: (rest ++ w))
    rw [Verbatim, if_neg hc]
    exact ⟨hv.1, ih hv.2⟩

theorem scan_plain {front : List UInt8} (h : ∀ c ∈ front, c ≠ quote) (text : List UInt8) :
    scan .outside (front ++ text) = (scan .outside text).map (front.map .char ++ ·) := by
  induction front with
  | nil => simp
  | cons c front ih =>
    rw [List.cons_append, scan, if_neg (h c (by simp)), ih fun d hd => h d (by simp [hd]),
      Option.map_map]
    rfl

theorem unescape_wildcard {c : UInt8} (h : c = percent ∨ c = underscore) :
    unescape c = [backslash, c] := by
  rcases h with rfl | rfl <;> decide

theorem scan_verbatim {value : List UInt8} (h : Verbatim value) (read text : List UInt8) :
    scan (.inside read) (value ++ text) = scan (.inside (read ++ value)) text := by
  fun_induction Verbatim value generalizing read with
  | case1 => simp
  | case2 c => rw [List.singleton_append, scan, if_neg h.1, if_neg h.2]
  | case3 d rest ih =>
    rw [List.cons_append, scan, if_neg (by decide), if_pos rfl, List.cons_append, scan,
      unescape_wildcard h.1, ih h.2]
    simp
  | case4 c d rest hc ih =>
    rw [List.cons_append, scan, if_neg h.1, if_neg hc, ih h.2]
    simp

theorem scan_quoted {c : UInt8} (hc : c ≠ quote) (value text : List UInt8) :
    scan (.quoted value) (c :: text) = (scan .outside (c :: text)).map (.literal value :: ·) := by
  rw [scan, scan, if_neg hc, if_neg hc, Option.map_map]
  rfl

/-- The text around the values: no quotes, and something after every value. -/
def separated (front : List UInt8) (texts : List (List UInt8)) : Bool :=
  front.all (· ≠ quote) && texts.all fun text => text ≠ [] && text.all (· ≠ quote)

theorem plain_of_separated {front : List UInt8} {texts : List (List UInt8)}
    (h : separated front texts) : ∀ c ∈ front, c ≠ quote := by
  intro c hc
  rw [separated, Bool.and_eq_true] at h
  simpa using List.all_eq_true.mp h.1 c hc

theorem separated_cons {front text : List UInt8} {texts : List (List UInt8)}
    (h : separated front (text :: texts)) : text ≠ [] ∧ separated text texts := by
  rw [separated, List.all_cons, Bool.and_eq_true, Bool.and_eq_true, Bool.and_eq_true] at h
  obtain ⟨-, ⟨hne, hplain⟩, hrest⟩ := h
  refine ⟨by simpa using hne, ?_⟩
  rw [separated, hplain, hrest]
  rfl

/-- **Values that stand for themselves are read back.** -/
theorem lex_fill {front : List UInt8} {places : List (List UInt8 × List UInt8)}
    (hsep : separated front (places.map (·.2))) (h : ∀ place ∈ places, Verbatim place.1) :
    lex (fill front places) = some (meant front places) := by
  unfold lex
  induction places generalizing front with
  | nil =>
    have hplain := scan_plain (plain_of_separated hsep) []
    simpa [fill, meant, scan] using hplain
  | cons place places ih =>
    obtain ⟨value, text⟩ := place
    obtain ⟨hne, htext⟩ := separated_cons hsep
    have hrest := ih htext (fun q hq => h q (by simp [hq]))
    obtain ⟨c, text, rfl⟩ := List.exists_cons_of_ne_nil hne
    have hc : c ≠ quote := plain_of_separated htext c (by simp)
    have hvalue : Verbatim value := h (value, c :: text) (by simp)
    -- the text after the value shows that its quote ends it
    obtain ⟨tail, htail⟩ : ∃ tail, fill (c :: text) places = c :: tail := by
      cases places with
      | nil => exact ⟨text, rfl⟩
      | cons q qs => exact ⟨_, rfl⟩
    rw [fill, scan_plain (plain_of_separated hsep), scan, if_pos rfl, scan_verbatim hvalue, scan,
      if_pos rfl, htail, scan_quoted hc, ← htail, hrest, meant]
    simp

/-! ## Why nothing else is -/

/-- How many bytes a token stands for at least. -/
def Token.weight : Token → Nat
  | .char _ => 1
  | .literal value => value.length + 2

def weight (tokens : List Token) : Nat := (tokens.map Token.weight).sum

/-- How many bytes have been read at least of the literal at hand. -/
def Mode.weight : Mode → Nat
  | .outside => 0
  | .inside value => value.length + 1
  | .escaped value | .quoted value => value.length + 2

/-- What has been read of the literal at hand stands for itself. -/
def Mode.Verbatim : Mode → Prop
  | .outside => True
  | .inside value | .escaped value | .quoted value => SqlText.Verbatim value

@[simp] theorem weight_cons (t : Token) (tokens : List Token) :
    weight (t :: tokens) = t.weight + weight tokens := by
  simp [weight]

theorem unescape_length (c : UInt8) :
    (unescape c).length ≤ 2 ∧ ((unescape c).length = 2 → Verbatim (unescape c)) := by
  by_cases hwild : c = percent ∨ c = underscore
  · rw [unescape_wildcard hwild]
    refine ⟨Nat.le_refl _, fun _ => ?_⟩
    rw [Verbatim, if_pos rfl]
    exact ⟨hwild, trivial⟩
  · have hone : (unescape c).length = 1 := by
      unfold unescape
      rw [if_neg hwild]
      repeat' split
      all_goals rfl
    rw [hone]
    exact ⟨by decide, fun h => absurd h (by decide)⟩

/-- **A reading is never longer than the text**, and as long only when every
literal in it stands for itself. -/
theorem scan_weight {mode : Mode} {text : List UInt8} {tokens : List Token}
    (h : scan mode text = some tokens) :
    weight tokens ≤ mode.weight + text.length ∧
      (weight tokens = mode.weight + text.length → mode.Verbatim →
        ∀ value, .literal value ∈ tokens → Verbatim value) := by
  fun_induction scan mode text generalizing tokens with
  | case1 =>
    cases h
    simp [weight]
  | case2 => cases h
  | case3 => cases h
  | case4 value =>
    cases h
    refine ⟨by simp [weight, Token.weight, Mode.weight], fun _ hv w hw => ?_⟩
    simp only [List.mem_singleton, Token.literal.injEq] at hw
    rwa [hw]
  | case5 text ih =>
    obtain ⟨hle, hverb⟩ := ih h
    simp only [Mode.weight, List.length_cons, List.length_nil] at hle hverb ⊢
    exact ⟨by omega, fun heq _ => hverb (by omega) trivial⟩
  | case6 c text hc ih =>
    obtain ⟨rest, hrest, rfl⟩ := Option.map_eq_some_iff.mp h
    obtain ⟨hle, hverb⟩ := ih hrest
    simp only [Mode.weight, List.length_cons, weight_cons, Token.weight] at hle hverb ⊢
    refine ⟨by omega, fun heq _ w hw => hverb (by omega) trivial w ?_⟩
    simpa using hw
  | case7 value text ih =>
    obtain ⟨hle, hverb⟩ := ih h
    simp only [Mode.weight, List.length_cons] at hle hverb ⊢
    exact ⟨by omega, fun heq hv => hverb (by omega) hv⟩
  | case8 value text hq ih =>
    obtain ⟨hle, hverb⟩ := ih h
    simp only [Mode.weight, List.length_cons] at hle hverb ⊢
    exact ⟨by omega, fun heq hv => hverb (by omega) hv⟩
  | case9 value c text hq hb ih =>
    obtain ⟨hle, hverb⟩ := ih h
    simp only [Mode.weight, List.length_cons, List.length_append, List.length_nil] at hle hverb ⊢
    exact ⟨by omega, fun heq hv => hverb (by omega) (Verbatim.append hv ⟨hq, hb⟩)⟩
  | case10 value c text ih =>
    obtain ⟨hle, hverb⟩ := ih h
    obtain ⟨htwo, hkept⟩ := unescape_length c
    simp only [Mode.weight, List.length_cons, List.length_append] at hle hverb ⊢
    -- only a wildcard keeps both bytes of its escape
    exact ⟨by omega, fun heq hv => hverb (by omega) (Verbatim.append hv (hkept (by omega)))⟩
  | case11 value text ih =>
    obtain ⟨hle, -⟩ := ih h
    simp only [Mode.weight, List.length_cons, List.length_append, List.length_nil] at hle ⊢
    exact ⟨by omega, fun heq => by omega⟩
  | case12 value c text hq ih =>
    obtain ⟨rest, hrest, rfl⟩ := Option.map_eq_some_iff.mp h
    obtain ⟨hle, hverb⟩ := ih hrest
    simp only [Mode.weight, List.length_cons, weight_cons, Token.weight] at hle hverb ⊢
    refine ⟨by omega, fun heq hv w hw => ?_⟩
    rcases List.mem_cons.mp hw with hw | hw
    · rw [Token.literal.injEq] at hw
      rwa [hw]
    · exact hverb (by omega) trivial w (by simpa using hw)

theorem weight_meant (front : List UInt8) (places : List (List UInt8 × List UInt8)) :
    weight (meant front places) = (fill front places).length := by
  have hfront : ∀ (text : List UInt8) (tokens : List Token),
      weight (text.map .char ++ tokens) = text.length + weight tokens := by
    intro text tokens
    induction text with
    | nil => simp
    | cons c text ih =>
      rw [List.map_cons, List.cons_append, weight_cons, ih, Token.weight, List.length_cons]
      omega
  induction places generalizing front with
  | nil =>
    have h := hfront front []
    simpa [meant, fill, weight] using h
  | cons place places ih =>
    obtain ⟨value, text⟩ := place
    rw [meant, hfront, weight_cons, ih, fill, Token.weight]
    simp only [List.length_append, List.length_cons]
    omega

theorem literal_mem_meant {front : List UInt8} {places : List (List UInt8 × List UInt8)}
    {place : List UInt8 × List UInt8} (h : place ∈ places) :
    .literal place.1 ∈ meant front places := by
  induction places generalizing front with
  | nil => simp at h
  | cons q places ih =>
    obtain ⟨value, text⟩ := q
    rcases List.mem_cons.mp h with rfl | h
    · simp [meant]
    · simp [meant, ih h]

/-- **A text is read as it was meant** exactly when every value in it stands
for itself. -/
theorem lex_fill_iff {front : List UInt8} {places : List (List UInt8 × List UInt8)}
    (hsep : separated front (places.map (·.2))) :
    lex (fill front places) = some (meant front places) ↔
      ∀ place ∈ places, Verbatim place.1 := by
  refine ⟨fun h place hmem => ?_, lex_fill hsep⟩
  have hweight := weight_meant front places
  exact (scan_weight h).2 (by rw [hweight, Mode.weight, Nat.zero_add]) trivial place.1
    (literal_mem_meant hmem)

end LibuvServer.Lib.SqlText
