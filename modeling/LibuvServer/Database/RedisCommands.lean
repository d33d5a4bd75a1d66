import LibuvServer.Database.Database
import Mathlib.Tactic.Common

/-!
# Commands of redis

How `redisvFormatCommand` of `package/hiredis/hiredis.c` takes a text apart
that comes without arguments: blanks end a word, and `%` begins a directive.
-/

namespace LibuvServer.Database

open LibuvServer.Netbus LibuvServer.Mylua

/-- The loop of `redisvFormatCommand`, with `curargv`, `curarg` and `touched`.
A directive but `%%` takes an argument that was not given, or is not one. -/
def formatFrom : Bytes → List Bytes → Bytes → Bool → Option (List Bytes)
  | [], curargv, curarg, touched => some (if touched then curargv ++ [curarg] else curargv)
  | c :: format, curargv, curarg, touched =>
    if c ≠ 0x25 ∨ format = [] then
      if c = 0x20 then
        if touched then formatFrom format (curargv ++ [curarg]) [] false
        else formatFrom format curargv curarg touched
      else formatFrom format curargv (curarg ++ [c]) true
    else
      match format with
      | [] => none
      | d :: format =>
        if d = 0x25 then formatFrom format curargv (curarg ++ [0x25]) true else none

/-- `redisvFormatCommand`. -/
def redisvFormatCommand (format : Bytes) : Option (List Bytes) := formatFrom format [] [] false

/-! ## Words -/

/-- A word of a command: not empty, without a blank and a zero byte. -/
def IsWord (w : Bytes) : Prop := w ≠ [] ∧ 0x20 ∉ w ∧ 0 ∉ w

instance (w : Bytes) : Decidable (IsWord w) :=
  inferInstanceAs (Decidable (w ≠ [] ∧ 0x20 ∉ w ∧ 0 ∉ w))

/-- A word without `%`. -/
def Plain (w : Bytes) : Prop := IsWord w ∧ 0x25 ∉ w

instance (w : Bytes) : Decidable (Plain w) :=
  inferInstanceAs (Decidable (IsWord w ∧ 0x25 ∉ w))

def joinWords : List Bytes → Bytes
  | [] => []
  | [w] => w
  | w :: w' :: words => w ++ 0x20 :: joinWords (w' :: words)

section Words

variable {curargv argv : List Bytes} {curarg w format : Bytes} {touched : Bool} {c : UInt8}

theorem formatFrom_char (hc : c ≠ 0x25) (hblank : c ≠ 0x20) :
    formatFrom (c :: format) curargv curarg touched =
      formatFrom format curargv (curarg ++ [c]) true := by
  rw [formatFrom.eq_def]
  simp only [if_pos (Or.inl hc), if_neg hblank]

theorem formatFrom_blank :
    formatFrom (0x20 :: format) curargv curarg touched =
      if touched then formatFrom format (curargv ++ [curarg]) [] false
      else formatFrom format curargv curarg touched := by
  rw [formatFrom.eq_def]
  have hc : (0x20 : UInt8) ≠ 0x25 := by decide
  simp only [if_pos (Or.inl hc), if_pos]

theorem formatFrom_percent (d : UInt8) :
    formatFrom (0x25 :: d :: format) curargv curarg touched =
      if d = 0x25 then formatFrom format curargv (curarg ++ [0x25]) true else none := by
  rw [formatFrom.eq_def]
  have hnone : ¬ ((0x25 : UInt8) ≠ 0x25 ∨ d :: format = []) := by
    intro h
    rcases h with h | h
    · exact h rfl
    · cases h
  simp only [if_neg hnone]

theorem directives_char (hc : c ≠ 0x25) : directives (c :: format) = directives format := by
  cases format with
  | nil => rfl
  | cons d format => rw [directives, if_pos hc]

/-- A command is taken apart when it has no directives. -/
theorem formatFrom_isSome :
    (formatFrom format curargv curarg touched).isSome ↔ directives format = 0 := by
  fun_induction formatFrom format curargv curarg touched with
  | case1 => exact iff_of_true rfl rfl
  | case2 curargv curarg format hlast ih =>
    rw [directives_char (by decide)]
    exact ih
  | case3 curargv curarg touched format hlast htouched ih =>
    rw [directives_char (by decide)]
    exact ih
  | case4 curargv curarg touched c format hlast hblank ih =>
    rw [ih]
    rcases hlast with hc | rfl
    · rw [directives_char hc]
    · exact Iff.rfl
  | case5 curargv curarg touched c hlast => exact absurd (Or.inr rfl) hlast
  | case6 c curargv curarg touched format hlast ih =>
    rw [not_or, not_not] at hlast
    rw [directives, if_neg (not_not_intro hlast.1), if_pos rfl]
    exact ih
  | case7 c curargv curarg touched d format hd hlast =>
    rw [not_or, not_not] at hlast
    rw [directives, if_neg (not_not_intro hlast.1), if_neg hd]
    exact iff_of_false Bool.false_ne_true (Nat.succ_ne_zero _)

/-- Words that are there already stay. -/
theorem formatFrom_extends (h : formatFrom format curargv curarg touched = some argv) :
    curargv <+: argv := by
  fun_induction formatFrom format curargv curarg touched with
  | case1 curargv curarg touched =>
    cases h
    split
    · exact List.prefix_append _ _
    · exact List.prefix_rfl
  | case2 curargv curarg format hlast ih => exact (List.prefix_append _ _).trans (ih h)
  | case3 curargv curarg touched format hlast htouched ih => exact ih h
  | case4 curargv curarg touched c format hlast hblank ih => exact ih h
  | case5 => cases h
  | case6 c curargv curarg touched format hlast ih => exact ih h
  | case7 => cases h

theorem IsWord.snoc (hblank : 0x20 ∉ curarg) (hzero : 0 ∉ curarg) (hc : c ≠ 0x20)
    (hc' : c ≠ 0) : IsWord (curarg ++ [c]) := by
  refine ⟨List.append_ne_nil_of_right_ne_nil _ (List.cons_ne_nil _ _), ?_, ?_⟩
  · rw [List.mem_append, List.mem_singleton]
    exact not_or.mpr ⟨hblank, hc.symm⟩
  · rw [List.mem_append, List.mem_singleton]
    exact not_or.mpr ⟨hzero, hc'.symm⟩

/-- A command is taken apart into words. -/
theorem formatFrom_words (h : formatFrom format curargv curarg touched = some argv)
    (hzero : 0 ∉ format) (hargv : ∀ w ∈ curargv, IsWord w) (hblank : 0x20 ∉ curarg)
    (hzero' : 0 ∉ curarg) (htouched : touched → curarg ≠ []) : ∀ w ∈ argv, IsWord w := by
  have hsnoc : ∀ {curargv : List Bytes} {curarg : Bytes}, (∀ w ∈ curargv, IsWord w) →
      IsWord curarg → ∀ w ∈ curargv ++ [curarg], IsWord w := by
    intro curargv curarg hargv hword w hw
    rcases List.mem_append.mp hw with hw | hw
    · exact hargv w hw
    · rw [List.mem_singleton.mp hw]
      exact hword
  fun_induction formatFrom format curargv curarg touched with
  | case1 curargv curarg touched =>
    cases h
    split
    · exact hsnoc hargv ⟨htouched ‹_›, hblank, hzero'⟩
    · exact hargv
  | case2 curargv curarg format hlast ih =>
    exact ih h (List.not_mem_of_not_mem_cons hzero)
      (hsnoc hargv ⟨htouched rfl, hblank, hzero'⟩) List.not_mem_nil List.not_mem_nil
      fun h => absurd h Bool.false_ne_true
  | case3 curargv curarg touched format hlast htouched' ih =>
    exact ih h (List.not_mem_of_not_mem_cons hzero) hargv hblank hzero' htouched
  | case4 curargv curarg touched c format hlast hc ih =>
    have hword := IsWord.snoc hblank hzero' hc (List.ne_of_not_mem_cons hzero).symm
    exact ih h (List.not_mem_of_not_mem_cons hzero) hargv hword.2.1 hword.2.2 fun _ => hword.1
  | case5 => cases h
  | case6 c curargv curarg touched format hlast ih =>
    have hword := IsWord.snoc hblank hzero' (by decide : (0x25 : UInt8) ≠ 0x20) (by decide)
    exact ih h (List.not_mem_of_not_mem_cons (List.not_mem_of_not_mem_cons hzero)) hargv
      hword.2.1 hword.2.2 fun _ => hword.1
  | case7 => cases h

/-- What is neither a blank nor a `%` is copied. -/
theorem formatFrom_chars (hw : ∀ c ∈ w, c ≠ 0x25 ∧ c ≠ 0x20) :
    formatFrom (w ++ format) curargv curarg touched =
      formatFrom format curargv (curarg ++ w) (touched || !w.isEmpty) := by
  induction w generalizing curarg touched with
  | nil =>
    rw [List.nil_append, List.append_nil]
    cases touched <;> rfl
  | cons c w ih =>
    obtain ⟨hc, hblank⟩ := hw c (.head _)
    rw [List.cons_append, formatFrom_char hc hblank, ih fun c hc => hw c (.tail _ hc),
      List.append_assoc, List.singleton_append, Bool.true_or, List.isEmpty_cons, Bool.not_false,
      Bool.or_true]

theorem formatFrom_plain (hw : Plain w) :
    formatFrom (w ++ format) curargv [] false = formatFrom format curargv w true := by
  obtain ⟨⟨hne, hblank, -⟩, hpercent⟩ := hw
  have hchars : ∀ c ∈ w, c ≠ 0x25 ∧ c ≠ 0x20 := fun c hc =>
    ⟨fun h => hpercent (h ▸ hc), fun h => hblank (h ▸ hc)⟩
  rw [formatFrom_chars hchars, List.isEmpty_eq_false_iff.mpr hne]
  rfl

/-- A word of its own. -/
theorem formatFrom_word (hw : Plain w) :
    formatFrom (w ++ 0x20 :: format) curargv [] false =
      formatFrom format (curargv ++ [w]) [] false := by
  rw [formatFrom_plain hw, formatFrom_blank, if_pos rfl]

/-- **Words are told apart** by the blanks between them. -/
theorem formatFrom_joinWords {words : List Bytes} (h : ∀ w ∈ words, Plain w)
    (curargv : List Bytes) :
    formatFrom (joinWords words) curargv [] false = some (curargv ++ words) := by
  fun_induction joinWords words generalizing curargv with
  | case1 =>
    rw [List.append_nil]
    rfl
  | case2 w =>
    have hrest : formatFrom (w ++ []) curargv [] false = formatFrom [] curargv w true :=
      formatFrom_plain (h w (.head _))
    rw [List.append_nil] at hrest
    exact hrest
  | case3 w w' words ih =>
    rw [formatFrom_word (h w (.head _)), ih fun w hw => h w (.tail _ hw), List.append_assoc,
      List.singleton_append]

theorem zero_notMem_joinWords {words : List Bytes} (h : ∀ w ∈ words, IsWord w) :
    0 ∉ joinWords words := by
  fun_induction joinWords words with
  | case1 => exact List.not_mem_nil
  | case2 w => exact (h w (.head _)).2.2
  | case3 w w' words ih =>
    rw [List.mem_append, List.mem_cons, not_or, not_or]
    exact ⟨(h w (.head _)).2.2, by decide, ih fun w hw => h w (.tail _ hw)⟩

/-- Without a blank it is one word, and shorter when there was a `%`. -/
theorem formatFrom_noBlank (hw : 0x20 ∉ w)
    (h : formatFrom (w ++ 0x20 :: format) curargv curarg touched = some argv) :
    ∃ w', formatFrom (0x20 :: format) curargv (curarg ++ w') (touched || !w.isEmpty) = some argv ∧
      w'.length ≤ w.length ∧ (0x25 ∈ w → w'.length < w.length) := by
  induction hn : w.length using Nat.strong_induction_on generalizing w curarg touched with
  | h n ih =>
    cases w with
    | nil =>
      refine ⟨[], ?_, Nat.zero_le _, fun h => absurd h List.not_mem_nil⟩
      rw [List.append_nil]
      cases touched <;> exact h
    | cons c w =>
      have hblank := (List.ne_of_not_mem_cons hw).symm
      have hrest := List.not_mem_of_not_mem_cons hw
      rw [List.length_cons] at hn
      rw [List.cons_append] at h
      by_cases hc : c = 0x25
      · -- the `%` has a blank after it, or is one of two
        rw [hc] at h
        cases w with
        | nil =>
          rw [List.nil_append, formatFrom_percent, if_neg (by decide)] at h
          cases h
        | cons d w =>
          rw [List.cons_append, formatFrom_percent] at h
          split at h
          · rw [List.length_cons] at hn
            obtain ⟨w', hw', hle, -⟩ :=
              ih w.length (by omega) (List.not_mem_of_not_mem_cons hrest) h rfl
            refine ⟨0x25 :: w', ?_, ?_, fun _ => ?_⟩
            · rw [Bool.true_or, List.append_assoc, List.singleton_append] at hw'
              rw [List.isEmpty_cons, Bool.not_false, Bool.or_true]
              exact hw'
            · rw [List.length_cons]
              omega
            · rw [List.length_cons]
              omega
          · cases h
      · rw [formatFrom_char hc hblank] at h
        obtain ⟨w', hw', hle, hlt⟩ := ih w.length (by omega) hrest h rfl
        refine ⟨c :: w', ?_, ?_, fun hmem => ?_⟩
        · rw [Bool.true_or, List.append_assoc, List.singleton_append] at hw'
          rw [List.isEmpty_cons, Bool.not_false, Bool.or_true]
          exact hw'
        · rw [List.length_cons]
          omega
        · have hmem' := (List.mem_cons.mp hmem).resolve_left (Ne.symm hc)
          have hlt' := hlt hmem'
          rw [List.length_cons]
          omega

/-- In a command with this word that is taken apart, it is shorter when there was
a `%` in it. -/
theorem formatFrom_shorter {words : List Bytes} (hw : IsWord w) (hwords : ∀ w ∈ words, Plain w)
    (h : formatFrom (w ++ 0x20 :: joinWords words) curargv [] false = some argv) :
    ∃ w', argv = curargv ++ w' :: words ∧ (0x25 ∈ w → w'.length < w.length) := by
  obtain ⟨w', hw', -, hlt⟩ := formatFrom_noBlank hw.2.1 h
  rw [List.isEmpty_eq_false_iff.mpr hw.1, Bool.not_false, Bool.or_true, formatFrom_blank,
    if_pos rfl, formatFrom_joinWords hwords, Option.some.injEq, List.nil_append, List.append_assoc,
    List.singleton_append] at hw'
  exact ⟨w', hw'.symm, hlt⟩

end Words

end LibuvServer.Database
