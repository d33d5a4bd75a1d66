import LibuvServer.Http.Cases
import Mathlib.Tactic.Common

/-!
# Byte by byte

The parser as a machine that is fed one byte at a time: no loop looks ahead,
and a mark is what has come since. On data that is not longer than a header may
be, `http_parser_execute` is this machine.
-/

namespace LibuvServer.Http

open LibuvServer.Netbus

/-! ## One byte at a time -/

/-- What the data comes to, when the loop goes on with `go`. -/
def Flow.resume {Mark : Type} (flow : Flow Mark) (go : Vars Mark → Executed) : Executed :=
  match flow with
  | .next v => go v
  | .ret v => .returned v.events
  | .error e v => .error e v.events
  | .faulted => .faulted

/-- The loop over the data, were every turn one byte. -/
def steps (v : Vars Bytes) : Bytes → Executed
  | [] => atEnd (pointer []) v
  | ch :: p => (byteTurn (pointer (ch :: p)) ch v.countByte).resume (steps · p)

/-- What `COUNT_HEADER_SIZE` compares stays small to the end of the data. -/
def Vars.Fits (v : Vars Bytes) (p : Bytes) : Prop :=
  v.parser.nread + p.length ≤ HTTP_MAX_HEADER_SIZE

section Turns

variable {v : Vars Bytes} {ch : UInt8} {p : Bytes}

/-- The parser, with another count. -/
def HttpParser.setRead (parser : HttpParser) (n : Nat) : HttpParser := { parser with nread := n }

theorem addRead_eq {parser : HttpParser} {n : Nat} (h : parser.nread + n ≤ HTTP_MAX_HEADER_SIZE) :
    parser.addRead n = parser.setRead (parser.nread + n) := by
  have hlt : parser.nread + n < 2 ^ 32 := Nat.lt_of_le_of_lt h (by decide)
  rw [HttpParser.addRead, HttpParser.setRead, Nat.mod_eq_of_lt hlt]

theorem countByte_eq (h : v.Fits (ch :: p)) (hs : v.parser.state.parsingHeader = true) :
    v.countByte = { v with parser := v.parser.setRead (v.parser.nread + 1) } := by
  rw [Vars.countByte, if_pos hs, addRead_eq]
  exact Nat.le_trans (Nat.add_le_add_left (Nat.succ_le_succ (Nat.zero_le _)) _) h

theorem Vars.Fits.countByte (h : v.Fits (ch :: p)) : v.countByte.Fits p := by
  by_cases hs : v.parser.state.parsingHeader = true
  · rw [countByte_eq h hs]
    unfold Vars.Fits HttpParser.setRead at *
    simp only [List.length_cons] at h ⊢
    omega
  · rw [Vars.countByte, if_neg hs]
    exact Nat.le_trans (Nat.add_le_add_left (Nat.le_succ _) _) h

theorem Vars.Fits.later {w : Vars Bytes} {place : Place Bytes} (h : v.Fits p)
    (hw : v.Later place w) : w.Fits p := by
  unfold Vars.Fits at *
  rcases hw.nread with hsame | hzero
  · rw [hsame]
    exact h
  · rw [hzero]
    omega

/-! ## Names -/

/-- The loop after a scan, at the place the scan has come to. -/
def Scan.go (v : Vars Bytes) (start : Bytes) : Scan → Executed
  | .stop parser p =>
    steps { v with parser := parser.setRead (v.parser.nread + (start.length - p.length)) } p
  | .error e => .error e v.events
  | .faulted => .faulted

theorem fieldByte_setRead (ch : UInt8) (parser : HttpParser) (n : Nat) :
    fieldByte ch (parser.setRead n) = (fieldByte ch parser).map (·.setRead n) := by
  rw [fieldByte, fieldByte, Option.map_map]
  rfl

theorem steps_field {parser : HttpParser} (hs : parser.state = .s_header_field)
    (hv : v.parser = parser.setRead v.parser.nread) (hfit : v.Fits (ch :: p))
    (htoken : TOKEN ch ≠ 0) :
    steps v (ch :: p) = match fieldByte ch parser with
      | none => .faulted
      | some parser' => steps { v with parser := parser'.setRead (v.parser.nread + 1) } p := by
  have hstate : v.parser.state = .s_header_field := hv ▸ hs
  have hcount := countByte_eq hfit (by rw [hstate]; rfl)
  have hset : v.parser.setRead (v.parser.nread + 1) = parser.setRead (v.parser.nread + 1) := by
    rw [hv]
    rfl
  have hturn : byteTurn (pointer (ch :: p)) ch v.countByte =
      byteField (pointer (ch :: p)) ch v.countByte := by
    rw [byteTurn, hcount, hset]
    simp only [HttpParser.setRead, hs]
  rw [steps, hturn, byteField, if_neg htoken, hcount, hset, fieldByte_setRead]
  cases fieldByte ch parser <;> rfl

theorem Scan.go_cons {scan : Scan} {parser : HttpParser}
    (hle : ∀ parser' p', scan = .stop parser' p' → p'.length ≤ p.length) :
    scan.go { v with parser := parser.setRead (v.parser.nread + 1) } p = scan.go v (ch :: p) := by
  cases scan with
  | stop parser' p' =>
    have hlen := hle parser' p' rfl
    have hread : v.parser.nread + 1 + (p.length - p'.length) =
        v.parser.nread + ((ch :: p).length - p'.length) := by
      rw [List.length_cons]
      omega
    exact congrArg (fun n => steps { v with parser := parser'.setRead n } p') hread
  | error e => rfl
  | faulted => rfl

/-- A name that is no longer matched is passed like any other. -/
theorem fieldByte_general {parser : HttpParser} (h : parser.header_state = .h_general) :
    fieldByte ch parser = some parser := by
  rw [fieldByte, h]
  obtain ⟨flags, state, header_state, index, nread, length, major, minor, method, upgrade⟩ := parser
  subst h
  rfl

theorem Vars.Fits.step {parser : HttpParser} (h : v.Fits (ch :: p)) :
    ({ v with parser := parser.setRead (v.parser.nread + 1) } : Vars Bytes).Fits p := by
  unfold Vars.Fits HttpParser.setRead at *
  simp only [List.length_cons] at h ⊢
  omega

theorem steps_stop {parser : HttpParser} (hv : v.parser = parser.setRead v.parser.nread)
    (p : Bytes) : steps v p = (Scan.stop parser p).go v p := by
  rw [Scan.go, Nat.sub_self, Nat.add_zero, ← hv]

theorem steps_scanField {inner : Option Nat} {parser : HttpParser} {start : Bytes}
    (hs : parser.state = .s_header_field)
    (hinner : inner ≠ none → parser.header_state = .h_general)
    (hv : v.parser = parser.setRead v.parser.nread) (hfit : v.Fits start) :
    steps v start = (scanField inner parser start).go v start := by
  fun_induction scanField inner parser start generalizing v with
  | case1 parser => exact steps_stop hv []
  | case2 n parser ch p htoken => exact steps_stop hv (ch :: p)
  | case3 n parser ch p htoken ih =>
    have hgeneral := hinner (Option.some_ne_none _)
    rw [steps_field hs hv hfit htoken, fieldByte_general hgeneral]
    rw [← Scan.go_cons fun _ _ h => (scanField_suffix h).length_le]
    exact ih hs (fun _ => hgeneral) rfl hfit.step
  | case4 _ parser ch p _ htoken => exact steps_stop hv (ch :: p)
  | case5 _ parser ch p _ htoken hgeneral ih =>
    rw [steps_field hs hv hfit htoken, fieldByte_general hgeneral]
    rw [← Scan.go_cons fun _ _ h => (scanField_suffix h).length_le]
    exact ih hs (fun _ => hgeneral) rfl hfit.step
  | case6 _ parser ch p _ htoken _ hfield =>
    rw [steps_field hs hv hfit htoken, hfield]
    rfl
  | case7 _ parser ch p _ htoken _ parser' hfield ih =>
    rw [steps_field hs hv hfit htoken, hfield]
    rw [← Scan.go_cons fun _ _ h => (scanField_suffix h).length_le]
    exact ih ((fieldByte_keeps hfield).state.trans hs) (fun h => absurd rfl h) rfl hfit.step

/-- A scan changes neither the state nor the count, and a byte it stops before
is no part of a name. -/
theorem scanField_stop {inner : Option Nat} {parser parser' : HttpParser} {start p : Bytes}
    (h : scanField inner parser start = .stop parser' p) :
    parser.Keeps parser' ∧ ∀ ch ∈ p.head?, TOKEN ch = 0 := by
  fun_induction scanField inner parser start with
  | case1 =>
    cases h
    exact ⟨⟨rfl, rfl, id⟩, fun _ h => absurd h (Option.not_mem_none _)⟩
  | case2 _ _ _ _ htoken | case4 _ _ _ _ _ htoken =>
    cases h
    refine ⟨⟨rfl, rfl, id⟩, fun ch hch => ?_⟩
    cases hch
    exact htoken
  | case3 _ _ _ _ _ ih | case5 _ _ _ _ _ _ _ ih => exact ih h
  | case6 => cases h
  | case7 _ _ _ _ _ _ _ _ hfield ih =>
    obtain ⟨hkeeps, hstop⟩ := ih h
    exact ⟨(fieldByte_keeps hfield).trans hkeeps, hstop⟩

/-- The rest of the data comes to `result` after the flow of a turn, and is
still short enough. -/
def Flow.Reaches (flow : Flow Bytes) (p : Bytes) (result : Executed) : Prop :=
  result = flow.resume (steps · p) ∧ flow.Goes (·.Fits p)

theorem countHeaderSize_eq {n m : Nat} {k : Vars Bytes → Flow Bytes}
    (hm : v.parser.nread + n = m) (hle : m ≤ HTTP_MAX_HEADER_SIZE) :
    countHeaderSize n v k = k { v with parser := v.parser.setRead m } := by
  subst hm
  unfold countHeaderSize
  rw [addRead_eq hle]
  exact if_neg (Nat.not_lt.mpr hle)

/-- The byte a scan stops before is counted by its own turn. -/
theorem Scan.go_stop {parser : HttpParser} {ch' : UInt8} {p' : Bytes}
    (hs : parser.state.parsingHeader = true) (hfit : v.Fits (ch :: p))
    (hle : p'.length ≤ p.length) :
    (Scan.stop parser (ch' :: p')).go v (ch :: p) =
      (byteTurn (pointer (ch' :: p')) ch' { v with
        parser := parser.setRead (v.parser.nread + (p.length - p'.length) + 1) }).resume
          (steps · p') := by
  have hfit' : ({ v with
      parser := parser.setRead (v.parser.nread + (p.length - p'.length)) } : Vars Bytes).Fits
        (ch' :: p') := by
    unfold Vars.Fits HttpParser.setRead at *
    simp only [List.length_cons] at hfit ⊢
    omega
  rw [Scan.go, List.length_cons, List.length_cons, Nat.succ_sub_succ, steps, countByte_eq hfit' hs]
  rfl

theorem headerField_reaches (hs : v.parser.state = .s_header_field) (hfit : v.Fits (ch :: p)) :
    (headerField (ch :: p) v.countByte).1.Reaches (headerField (ch :: p) v.countByte).2
      (steps v (ch :: p)) := by
  rw [countByte_eq hfit (by rw [hs]; rfl)]
  have hscan : steps v (ch :: p) =
      (scanField none (v.parser.setRead (v.parser.nread + 1)) (ch :: p)).go v (ch :: p) :=
    steps_scanField hs (fun h => absurd rfl h) rfl hfit
  rw [hscan, headerField]
  dsimp only
  cases hstop : scanField none (v.parser.setRead (v.parser.nread + 1)) (ch :: p) with
  | faulted => exact ⟨rfl, trivial⟩
  | error e => exact ⟨rfl, trivial⟩
  | stop parser' rest =>
    have hle := (scanField_suffix hstop).length_le
    obtain ⟨hkeeps, htoken⟩ := scanField_stop hstop
    have hstate : parser'.state = .s_header_field := hkeeps.state.trans hs
    have hread : parser'.nread = v.parser.nread + 1 := hkeeps.nread
    have hmax : v.parser.nread + (p.length + 1) ≤ HTTP_MAX_HEADER_SIZE := hfit
    cases rest with
    | nil =>
      dsimp only
      rw [countHeaderSize_eq (m := v.parser.nread + (p.length + 1))]
      · exact ⟨rfl, hmax⟩
      · dsimp only
        rw [hread, List.length_cons]
        omega
      · exact hmax
    | cons ch' p' =>
      have hlt : p'.length ≤ p.length := Nat.le_of_succ_le_succ hle
      have htoken' : TOKEN ch' = 0 := htoken ch' rfl
      dsimp only
      rw [countHeaderSize_eq (m := v.parser.nread + (p.length - p'.length) + 1)]
      · rw [Scan.go_stop (by rw [hstate]; rfl) hfit hlt, byteTurn]
        simp only [HttpParser.setRead, hstate, byteField, htoken', if_true]
        split
        · refine ⟨rfl, ?_⟩
          show v.parser.nread + (p.length - p'.length) + 1 + p'.length ≤ HTTP_MAX_HEADER_SIZE
          omega
        · exact ⟨rfl, trivial⟩
      · dsimp only
        rw [hread, List.length_cons]
        omega
      · omega

/-! ## Values -/

theorem contentLengthNum_setRead (ch : UInt8) (parser : HttpParser) (n : Nat) :
    contentLengthNum ch (parser.setRead n) =
      (contentLengthNum ch parser).map id (·.setRead n) := by
  unfold contentLengthNum
  split
  · rfl
  · split
    · rfl
    · rw [show (parser.setRead n).content_length = parser.content_length from rfl]
      split <;> rfl

theorem valueByte_setRead (ch : UInt8) (parser : HttpParser) (n : Nat) :
    valueByte ch (parser.setRead n) =
      (valueByte ch parser).map (Sum.map id (·.setRead n)) := by
  unfold valueByte
  rw [show (parser.setRead n).header_state = parser.header_state from rfl,
    contentLengthNum_setRead]
  cases parser.header_state
  all_goals
    dsimp only
    try split
  all_goals
    rfl

theorem steps_value {parser : HttpParser} (hs : parser.state = .s_header_value)
    (hv : v.parser = parser.setRead v.parser.nread) (hfit : v.Fits (ch :: p))
    (hend : ¬ (ch = CR ∨ ch = LF)) :
    steps v (ch :: p) =
      if ¬ IS_HEADER_CHAR ch then .error .INVALID_HEADER_TOKEN v.events
      else match valueByte ch parser with
        | none => .faulted
        | some (.inl e) => .error e v.events
        | some (.inr parser') =>
          steps { v with parser := parser'.setRead (v.parser.nread + 1) } p := by
  have hstate : v.parser.state = .s_header_value := hv ▸ hs
  have hcount := countByte_eq hfit (by rw [hstate]; rfl)
  have hset : v.parser.setRead (v.parser.nread + 1) = parser.setRead (v.parser.nread + 1) := by
    rw [hv]
    rfl
  have hturn : byteTurn (pointer (ch :: p)) ch v.countByte =
      byteValue (pointer (ch :: p)) ch v.countByte := by
    rw [byteTurn, hcount, hset]
    simp only [HttpParser.setRead, hs]
  rw [steps, hturn, byteValue, if_neg (fun h => hend (.inl h)), if_neg (fun h => hend (.inr h)),
    hcount, hset, valueByte_setRead]
  split
  · rfl
  · cases valueByte ch parser with
    | none => rfl
    | some flow => cases flow <;> rfl

/-- A value in which nothing is looked for is passed like any other. -/
theorem valueByte_general {parser : HttpParser} (h : parser.header_state = .h_general) :
    valueByte ch parser = some (.inr parser) := by
  obtain ⟨flags, state, header_state, index, nread, length, major, minor, method, upgrade⟩ := parser
  subst h
  rfl

/-- The data is at most as long as a loop of its own looks at, so that it does not
pass a byte that is not looked at. -/
theorem steps_scanValue {inner : Option Nat} {parser : HttpParser} {start : Bytes}
    (hs : parser.state = .s_header_value)
    (hinner : ∀ n, inner = some n → parser.header_state = .h_general ∧ start.length ≤ n)
    (hv : v.parser = parser.setRead v.parser.nread) (hfit : v.Fits start) :
    steps v start = (scanValue inner parser start).go v start := by
  fun_induction scanValue inner parser start generalizing v with
  | case1 _ parser => exact steps_stop hv []
  | case2 parser ch p ih => exact absurd (hinner 0 rfl).2 (Nat.not_succ_le_zero _)
  | case3 n parser ch p hend => exact steps_stop hv (ch :: p)
  | case4 n parser ch p hend hchar =>
    rw [steps_value hs hv hfit hend, if_pos hchar]
    rfl
  | case5 n parser ch p hend hchar ih =>
    obtain ⟨hgeneral, hlen⟩ := hinner _ rfl
    rw [steps_value hs hv hfit hend, if_neg hchar, valueByte_general hgeneral]
    rw [← Scan.go_cons fun _ _ h => (scanValue_suffix h).length_le]
    refine ih hs ?_ rfl hfit.step
    intro m hm
    cases hm
    exact ⟨hgeneral, Nat.le_of_succ_le_succ hlen⟩
  | case6 parser ch p hend => exact steps_stop hv (ch :: p)
  | case7 parser ch p hend hchar =>
    rw [steps_value hs hv hfit hend, if_pos hchar]
    rfl
  | case8 parser ch p hend hchar hgeneral ih =>
    rw [steps_value hs hv hfit hend, if_neg hchar, valueByte_general hgeneral]
    rw [← Scan.go_cons fun _ _ h => (scanValue_suffix h).length_le]
    refine ih hs ?_ rfl hfit.step
    intro m hm
    cases hm
    refine ⟨hgeneral, ?_⟩
    have hmax : v.parser.nread + (p.length + 1) ≤ HTTP_MAX_HEADER_SIZE := hfit
    omega
  | case9 parser ch p hend hchar _ hvalue =>
    rw [steps_value hs hv hfit hend, if_neg hchar, hvalue]
    rfl
  | case10 parser ch p hend hchar _ e hvalue =>
    rw [steps_value hs hv hfit hend, if_neg hchar, hvalue]
    rfl
  | case11 parser ch p hend hchar _ parser' hvalue ih =>
    rw [steps_value hs hv hfit hend, if_neg hchar, hvalue]
    rw [← Scan.go_cons fun _ _ h => (scanValue_suffix h).length_le]
    exact ih ((valueByte_keeps hvalue).state.trans hs)
      (fun n hn => absurd hn (Option.some_ne_none n).symm) rfl hfit.step

theorem scanValue_stop {inner : Option Nat} {parser parser' : HttpParser} {start p : Bytes}
    (h : scanValue inner parser start = .stop parser' p) :
    parser.Keeps parser' ∧ ∀ ch ∈ p.head?, ch = CR ∨ ch = LF := by
  fun_induction scanValue inner parser start with
  | case1 =>
    cases h
    exact ⟨⟨rfl, rfl, id⟩, fun _ h => absurd h (Option.not_mem_none _)⟩
  | case3 _ _ _ _ hend | case6 _ _ _ hend =>
    cases h
    refine ⟨⟨rfl, rfl, id⟩, fun ch hch => ?_⟩
    cases hch
    exact hend
  | case2 _ _ _ ih | case5 _ _ _ _ _ _ ih | case8 _ _ _ _ _ _ ih => exact ih h
  | case4 | case7 | case9 | case10 => cases h
  | case11 _ _ _ _ _ _ _ hvalue ih =>
    obtain ⟨hkeeps, hstop⟩ := ih h
    exact ⟨(valueByte_keeps hvalue).trans hkeeps, hstop⟩

theorem headerValue_reaches (hs : v.parser.state = .s_header_value) (hfit : v.Fits (ch :: p)) :
    (headerValue (ch :: p) v.countByte).1.Reaches (headerValue (ch :: p) v.countByte).2
      (steps v (ch :: p)) := by
  rw [countByte_eq hfit (by rw [hs]; rfl)]
  have hscan : steps v (ch :: p) =
      (scanValue none (v.parser.setRead (v.parser.nread + 1)) (ch :: p)).go v (ch :: p) :=
    steps_scanValue hs (fun n hn => absurd hn (Option.some_ne_none n).symm) rfl hfit
  rw [hscan, headerValue]
  dsimp only
  cases hstop : scanValue none (v.parser.setRead (v.parser.nread + 1)) (ch :: p) with
  | faulted => exact ⟨rfl, trivial⟩
  | error e => exact ⟨rfl, trivial⟩
  | stop parser' rest =>
    have hle := (scanValue_suffix hstop).length_le
    obtain ⟨hkeeps, hend⟩ := scanValue_stop hstop
    have hstate : parser'.state = .s_header_value := hkeeps.state.trans hs
    have hread : parser'.nread = v.parser.nread + 1 := hkeeps.nread
    have hmax : v.parser.nread + (p.length + 1) ≤ HTTP_MAX_HEADER_SIZE := hfit
    cases rest with
    | nil =>
      dsimp only
      rw [countHeaderSize_eq (m := v.parser.nread + (p.length + 1))]
      · exact ⟨rfl, hmax⟩
      · dsimp only
        rw [hread, List.length_cons]
        omega
      · exact hmax
    | cons ch' p' =>
      have hlt : p'.length ≤ p.length := Nat.le_of_succ_le_succ hle
      dsimp only
      rw [Scan.go_stop (by rw [hstate]; rfl) hfit hlt, byteTurn]
      simp only [HttpParser.setRead, hstate, byteValue]
      have hfits : v.parser.nread + (p.length - p'.length) + 1 + p'.length ≤
          HTTP_MAX_HEADER_SIZE := by omega
      have hsum : parser'.nread + ((ch :: p).length - (p'.length + 1)) =
          v.parser.nread + (p.length - p'.length) + 1 := by
        rw [hread, List.length_cons]
        omega
      split
      · rw [countHeaderSize_eq hsum (by omega)]
        exact ⟨rfl, hfits⟩
      · rw [if_pos ((hend ch' rfl).resolve_left ‹_›), countHeaderSize_eq hsum (by omega)]
        refine ⟨rfl, ?_⟩
        unfold headerAlmostDone
        split
        · trivial
        · exact hfits

/-! ## Bodies -/

theorem countByte_body (hs : v.parser.state.parsingHeader = false) : v.countByte = v :=
  if_neg (by rw [hs]; exact Bool.false_ne_true)

/-- What `s_body_identity` and `s_chunk_data` have in common: so much of the data is
read as there is, and `k` comes when there is nothing left to read. -/
def readData (k : Vars Bytes → Flow Bytes) (start : Bytes) (v : Vars Bytes) :
    Flow Bytes × Bytes :=
  let toRead := min v.parser.content_length start.length
  let length := v.parser.content_length - toRead
  let v := v.markBody (pointer start)
  let v := { v with parser := { v.parser with content_length := length } }
  (if length = 0 then k v else .next v, start.drop toRead)

/-- The last byte there is, of the body or of the data. -/
theorem readData_last {k : Vars Bytes → Flow Bytes} (hpos : 0 < v.parser.content_length)
    (h : v.parser.content_length = 1 ∨ p = []) :
    readData k (ch :: p) v =
      (if v.parser.content_length = 1 then k (v.readBody (pointer (ch :: p)))
        else .next (v.readBody (pointer (ch :: p))), p) := by
  have hread : min v.parser.content_length (ch :: p).length = 1 := by
    rw [List.length_cons]
    rcases h with hone | rfl
    · omega
    · rw [List.length_nil]
      omega
  have hzero : v.parser.content_length - 1 = 0 ↔ v.parser.content_length = 1 := by omega
  unfold readData
  rw [hread]
  simp only [hzero]
  rfl

/-- A byte that is not the last one. -/
theorem readData_cons {k : Vars Bytes → Flow Bytes} {ch' : UInt8}
    (hlength : 1 < v.parser.content_length) :
    readData k (ch :: ch' :: p) v =
      readData k (ch' :: p) (v.readBody (pointer (ch :: ch' :: p))) := by
  have hread : min v.parser.content_length (ch :: ch' :: p).length =
      min (v.parser.content_length - 1) (ch' :: p).length + 1 := by
    simp only [List.length_cons]
    omega
  have hmark : (v.readBody (pointer (ch :: ch' :: p))).markBody (pointer (ch' :: p)) =
      v.readBody (pointer (ch :: ch' :: p)) := by
    unfold Vars.readBody Vars.markBody
    cases v.body_mark <;> rfl
  have hleft : v.parser.content_length - (min (v.parser.content_length - 1) (ch' :: p).length + 1) =
      v.parser.content_length - 1 - min (v.parser.content_length - 1) (ch' :: p).length := by
    omega
  unfold readData
  rw [hread, hmark]
  dsimp only
  rw [hleft]
  rfl

/-- The steps of a loop over a body. -/
def BodySteps (state : State) (flags : Flags) (k : Vars Bytes → Flow Bytes) : Prop :=
  ∀ w : Vars Bytes, w.parser.state = state → w.parser.flags = flags →
    0 < w.parser.content_length → w.parser.content_length < ULLONG_MAX → ∀ ch p,
      steps w (ch :: p) =
        (if w.parser.content_length = 1 then k (w.readBody (pointer (ch :: p)))
          else .next (w.readBody (pointer (ch :: p)))).resume (steps · p)

theorem readData_reaches_last {k : Vars Bytes → Flow Bytes}
    (hstep : BodySteps v.parser.state v.parser.flags k)
    (hk : ∀ w, (k w).Goes (w.Later (pointer [])))
    (hpos : 0 < v.parser.content_length) (hmax : v.parser.content_length < ULLONG_MAX)
    (hfit : v.Fits (ch :: p)) (h : v.parser.content_length = 1 ∨ p = []) :
    (readData k (ch :: p) v).1.Reaches (readData k (ch :: p) v).2 (steps v (ch :: p)) := by
  have hfit' : (v.readBody (pointer (ch :: p))).Fits p :=
    Nat.le_trans (Nat.add_le_add_left (Nat.le_succ _) _) hfit
  rw [readData_last hpos h]
  refine ⟨hstep v rfl rfl hpos hmax ch p, ?_⟩
  dsimp only
  split
  · have hlater := hk (v.readBody (pointer (ch :: p)))
    cases hflow : k (v.readBody (pointer (ch :: p))) with
    | next w =>
      rw [hflow] at hlater
      exact hfit'.later hlater
    | ret | error | faulted => trivial
  · exact hfit'

theorem readData_reaches {k : Vars Bytes → Flow Bytes}
    (hstep : BodySteps v.parser.state v.parser.flags k)
    (hk : ∀ w, (k w).Goes (w.Later (pointer [])))
    (hpos : 0 < v.parser.content_length) (hmax : v.parser.content_length < ULLONG_MAX)
    (hfit : v.Fits (ch :: p)) :
    (readData k (ch :: p) v).1.Reaches (readData k (ch :: p) v).2 (steps v (ch :: p)) := by
  induction p generalizing v ch with
  | nil => exact readData_reaches_last hstep hk hpos hmax hfit (.inr rfl)
  | cons ch' p ih =>
    by_cases hone : v.parser.content_length = 1
    · exact readData_reaches_last hstep hk hpos hmax hfit (.inl hone)
    · have hmore : 1 < v.parser.content_length := by omega
      rw [readData_cons hmore, hstep v rfl rfl hpos hmax, if_neg hone]
      refine ih hstep ?_ ?_ ?_
      · exact Nat.sub_pos_of_lt hmore
      · exact Nat.lt_of_le_of_lt (Nat.sub_le _ _) hmax
      · exact Nat.le_trans (Nat.add_le_add_left (Nat.le_succ _) _) hfit

theorem bodyIdentity_reaches (hs : v.parser.state = .s_body_identity) (hfit : v.Fits (ch :: p))
    (hlength : v.parser.content_length ≤ ULLONG_MAX) :
    (bodyIdentity (ch :: p) v).1.Reaches (bodyIdentity (ch :: p) v).2 (steps v (ch :: p)) := by
  have hturn : ∀ (w : Vars Bytes) ch p, w.parser.state = .s_body_identity →
      steps w (ch :: p) = (byteBody (pointer (ch :: p)) w).resume (steps · p) := by
    intro w ch p hw
    rw [steps, countByte_body (by rw [hw]; rfl), byteTurn, hw]
  have hstep : BodySteps v.parser.state v.parser.flags fun w =>
      messageDone (w.update .s_message_done).callBody := by
    intro w hw _ hpos hmax ch p
    rw [hturn w ch p (hw.trans hs), byteBody, if_neg (by omega)]
  by_cases hfault : v.parser.content_length = 0 ∨ v.parser.content_length = ULLONG_MAX
  · rw [hturn v ch p hs, byteBody, bodyIdentity, if_pos hfault, if_pos hfault]
    exact ⟨rfl, trivial⟩
  · have hread := readData_reaches hstep (fun w => messageDone_later.later (.same rfl rfl rfl rfl))
      (by omega) (by omega) hfit
    rw [bodyIdentity, if_neg hfault]
    exact hread

theorem chunkData_reaches (hs : v.parser.state = .s_chunk_data) (hfit : v.Fits (ch :: p))
    (hlength : v.parser.content_length ≤ ULLONG_MAX) :
    (chunkData (ch :: p) v).1.Reaches (chunkData (ch :: p) v).2 (steps v (ch :: p)) := by
  have hturn : ∀ (w : Vars Bytes) ch p, w.parser.state = .s_chunk_data →
      steps w (ch :: p) = (byteChunk (pointer (ch :: p)) w).resume (steps · p) := by
    intro w ch p hw
    rw [steps, countByte_body (by rw [hw]; rfl), byteTurn, hw]
  by_cases hfault : ¬ v.parser.flags.F_CHUNKED ∨ v.parser.content_length = 0 ∨
      v.parser.content_length = ULLONG_MAX
  · rw [hturn v ch p hs, byteChunk, chunkData, if_pos hfault, if_pos hfault]
    exact ⟨rfl, trivial⟩
  · have hchunked : v.parser.flags.F_CHUNKED = true := by
      by_contra hnot
      exact hfault (.inl hnot)
    have hstep : BodySteps v.parser.state v.parser.flags fun w =>
        .next (w.update .s_chunk_data_almost_done) := by
      intro w hw hflags hpos hmax ch p
      have hgood : ¬ (¬ w.parser.flags.F_CHUNKED ∨ w.parser.content_length = 0 ∨
          w.parser.content_length = ULLONG_MAX) := by
        rw [hflags, hchunked]
        simp only [not_true_eq_false, false_or]
        omega
      rw [hturn w ch p (hw.trans hs), byteChunk, if_neg hgood]
    have hread := readData_reaches hstep (fun w => .same rfl rfl rfl rfl) (by omega) (by omega) hfit
    rw [chunkData, if_neg hfault]
    simp only [readData, apply_ite Flow.next] at hread ⊢
    exact hread

/-- Up to the end, nothing is looked for. -/
theorem steps_eof {m : Bytes} (hs : v.parser.state = .s_body_identity_eof)
    (hmark : v.body_mark = some m) (p : Bytes) : steps v p = atEnd (pointer []) v := by
  induction p with
  | nil => rfl
  | cons ch p ih =>
    have hbody : v.markBody (pointer (ch :: p)) = v := by
      rw [Vars.markBody, hmark]
      obtain ⟨parser, field, value, url, body, events⟩ := v
      subst hmark
      rfl
    rw [steps, countByte_body (by rw [hs]; rfl), byteTurn]
    simp only [hs]
    rw [hbody]
    exact ih

/-! ## The loop -/

theorem turn_reaches (hfit : v.Fits (ch :: p)) (hlength : v.parser.content_length ≤ ULLONG_MAX) :
    (turn ch p v.countByte).1.Reaches (turn ch p v.countByte).2 (steps v (ch :: p)) := by
  have hswitch : ∀ hbyte : byteTurn (pointer (ch :: p)) ch v.countByte =
      switch (pointer (ch :: p)) ch v.countByte,
      (switch (pointer (ch :: p)) ch v.countByte).Reaches p (steps v (ch :: p)) := by
    intro hbyte
    rw [steps, ← hbyte]
    refine ⟨rfl, ?_⟩
    have hlater := byteTurn_later (pointer (ch :: p)) ch v.countByte
    cases hflow : byteTurn (pointer (ch :: p)) ch v.countByte with
    | next w =>
      rw [hflow] at hlater
      exact hfit.countByte.later hlater
    | ret | error | faulted => trivial
  have hstate : v.countByte.parser.state = v.parser.state := by
    unfold Vars.countByte
    split <;> rfl
  unfold turn
  rw [byteTurn, hstate] at hswitch
  rw [hstate]
  split
  · exact headerField_reaches ‹_› hfit
  · exact headerValue_reaches ‹_› hfit
  · rename_i hs
    rw [countByte_body (by rw [hs]; rfl)]
    exact bodyIdentity_reaches hs hfit hlength
  · rename_i hs
    rw [countByte_body (by rw [hs]; rfl)]
    obtain ⟨m, hm⟩ : ∃ m, (v.markBody (pointer (ch :: p))).body_mark = some m := by
      unfold Vars.markBody
      cases v.body_mark with
      | none => exact ⟨_, rfl⟩
      | some m => exact ⟨m, rfl⟩
    rw [steps, countByte_body (by rw [hs]; rfl), byteTurn]
    simp only [hs]
    refine ⟨steps_eof (v := v.markBody _) hs hm p, ?_⟩
    exact Nat.le_trans (Nat.add_le_add_left (Nat.zero_le _) _) hfit
  · rename_i hs
    rw [countByte_body (by rw [hs]; rfl)]
    exact chunkData_reaches hs hfit hlength
  · rename_i hfield hvalue hbody heof hchunk
    refine hswitch ?_
    cases hs : v.parser.state with
    | s_header_field => exact absurd hs hfield
    | s_header_value => exact absurd hs hvalue
    | s_body_identity => exact absurd hs hbody
    | s_body_identity_eof => exact absurd hs heof
    | s_chunk_data => exact absurd hs hchunk
    | _ => rfl

theorem countHeaderSize_length {n : Nat} {k : Vars Bytes → Flow Bytes}
    (h : v.parser.content_length ≤ ULLONG_MAX)
    (hk : ∀ w : Vars Bytes, w.parser.content_length ≤ ULLONG_MAX →
      (k w).Goes (·.parser.content_length ≤ ULLONG_MAX)) :
    (countHeaderSize n v k).Goes (·.parser.content_length ≤ ULLONG_MAX) := by
  unfold countHeaderSize
  dsimp only
  split
  · trivial
  · exact hk _ h

/-- A turn keeps the length one of 64 bits. -/
theorem turn_length (h : v.parser.content_length ≤ ULLONG_MAX) :
    (turn ch p v).1.Goes (·.parser.content_length ≤ ULLONG_MAX) := by
  have hlater : ∀ {flow : Flow Bytes}, flow.Goes (v.Later (pointer (ch :: p))) →
      flow.Goes (·.parser.content_length ≤ ULLONG_MAX) := by
    intro flow hflow
    cases flow with
    | next w => exact hflow.length h
    | ret | error | faulted => trivial
  unfold turn
  split
  · unfold headerField
    split
    · trivial
    · trivial
    · rename_i hscan
      exact countHeaderSize_length ((scanField_stop hscan).1.length h) fun w hw => hw
    · rename_i hscan
      dsimp only
      refine countHeaderSize_length ((scanField_stop hscan).1.length h) fun w hw => ?_
      split
      · exact hw
      · trivial
  · unfold headerValue
    split
    · trivial
    · trivial
    · rename_i hscan
      exact countHeaderSize_length ((scanValue_stop hscan).1.length h) fun w hw => hw
    · rename_i hscan
      have hlength := (scanValue_stop hscan).1.length h
      dsimp only
      split
      · refine countHeaderSize_length ?_ fun w hw => hw
        exact hlength
      · dsimp only
        refine countHeaderSize_length hlength fun w hw => ?_
        unfold headerAlmostDone
        split
        · trivial
        · exact hw
  · unfold bodyIdentity
    split
    · trivial
    · dsimp only
      split
      · exact hlater (messageDone_later.later ⟨.inl rfl, fun _ => Nat.le_trans (Nat.sub_le _ _) h,
          List.prefix_refl _, fun _ hm => .inl hm⟩)
      · exact Nat.le_trans (Nat.sub_le _ _) h
  · exact h
  · unfold chunkData
    split
    · trivial
    · dsimp only
      split
      · exact Nat.le_trans (Nat.sub_le _ _) h
      · exact Nat.le_trans (Nat.sub_le _ _) h
  · exact hlater (switch_later (pointer (ch :: p)) ch v)

theorem countByte_length : v.countByte.parser.content_length = v.parser.content_length := by
  unfold Vars.countByte
  split <;> rfl

/-- **The loops that look ahead** come to what the steps come to. -/
theorem loop_eq_steps (hfit : v.Fits p) (hlength : v.parser.content_length ≤ ULLONG_MAX) :
    loop v p = steps v p := by
  induction hn : p.length using Nat.strongRecOn generalizing v p with
  | ind n ih =>
    cases p with
    | nil => rw [loop, steps]
    | cons ch p =>
      obtain ⟨hsteps, hgoes⟩ := turn_reaches hfit hlength
      have hmax : ¬ (v.countByte.parser.state.parsingHeader ∧
          v.countByte.parser.nread > HTTP_MAX_HEADER_SIZE) := by
        have hcount := hfit.countByte
        unfold Vars.Fits at hcount
        omega
      have hgoes' : (turn ch p v.countByte).1.Goes (·.parser.content_length ≤ ULLONG_MAX) :=
        turn_length (countByte_length.symm ▸ hlength)
      rw [hsteps, loop, if_neg hmax]
      cases hflow : (turn ch p v.countByte).1 with
      | next w =>
        rw [hflow] at hgoes hgoes'
        refine ih _ ?_ hgoes hgoes' rfl
        rw [← hn, List.length_cons]
        exact Nat.lt_succ_of_le (turn_le ch p v.countByte)
      | ret | error | faulted => rfl

end Turns

end LibuvServer.Http
