import LibuvServer.Http.Assertions
import LibuvServer.Http.Feeding
import Mathlib.Tactic.Common

/-!
# Pieces of the data

A mark points into the data, behind all that has been reported, and what a
callback is given reaches from a mark to where the parser is. So the names and
values that are reported are parts of the data, one behind the other, also where
the parser looks ahead, and where it fails.
-/

namespace LibuvServer.Http

open LibuvServer.Netbus

/-- What has been reported of the data is cut from it in order, and the last
argument is left of it. -/
inductive Told (data : Bytes) : List HttpEvent → Bytes → Prop
  | start : Told data [] data
  | skip {es : List HttpEvent} {x left : Bytes} : Told data es (x ++ left) → Told data es left
  | field {es : List HttpEvent} {x left : Bytes} :
    Told data es (x ++ left) → Told data (es ++ [.headerField x]) left
  | value {es : List HttpEvent} {x left : Bytes} :
    Told data es (x ++ left) → Told data (es ++ [.headerValue x]) left
  | complete {es : List HttpEvent} {left : Bytes} :
    Told data es left → Told data (es ++ [.messageComplete]) left

theorem Told.later {data left p : Bytes} {es : List HttpEvent} (h : Told data es left)
    (hp : p <:+ left) : Told data es p := by
  obtain ⟨x, rfl⟩ := hp
  exact h.skip

/-- At `p`, marks point behind what has been reported, and not behind `p`. -/
def Vars.Points (data p : Bytes) (v : Vars Bytes) : Prop :=
  Told data v.events p ∧
    (∀ m ∈ v.header_field_mark, p <:+ m ∧ Told data v.events m) ∧
      ∀ m ∈ v.header_value_mark, p <:+ m ∧ Told data v.events m

/-- What holds of the locals however the case ends. -/
def Flow.All {Mark : Type} (Q : Vars Mark → Prop) : Flow Mark → Prop
  | .next v | .ret v | .error _ v => Q v
  | .faulted => True

theorem Flow.All.imp {Mark : Type} {Q R : Vars Mark → Prop} {flow : Flow Mark} (h : flow.All Q)
    (hQR : ∀ w, Q w → R w) : flow.All R := by
  cases flow with
  | next w | ret w | error _ w => exact hQR w h
  | faulted => trivial

section Cases

variable {data p : Bytes} {v : Vars Bytes} {ch : UInt8}

theorem Vars.Points.advance {q : Bytes} (h : v.Points data p) (hq : q <:+ p) : v.Points data q :=
  ⟨h.1.later hq, fun m hm => ⟨hq.trans (h.2.1 m hm).1, (h.2.1 m hm).2⟩,
    fun m hm => ⟨hq.trans (h.2.2 m hm).1, (h.2.2 m hm).2⟩⟩

/-- A mark that is set keeps its place. -/
theorem mem_mark {mark : Option Bytes} {m : Bytes} (h : m ∈ (mark <|> some p)) :
    m ∈ mark ∨ m = p := by
  cases mark with
  | none => exact .inr (Option.some.inj h).symm
  | some m' => exact .inl h

theorem Vars.Points.markField (h : v.Points data p) : (v.markField (pointer p)).Points data p := by
  refine ⟨h.1, fun m hm => ?_, h.2.2⟩
  rcases mem_mark hm with hm | rfl
  · exact h.2.1 m hm
  · exact ⟨List.suffix_refl _, h.1⟩

theorem Vars.Points.markValue (h : v.Points data p) : (v.markValue (pointer p)).Points data p := by
  refine ⟨h.1, h.2.1, fun m hm => ?_⟩
  rcases mem_mark hm with hm | rfl
  · exact h.2.2 m hm
  · exact ⟨List.suffix_refl _, h.1⟩

/-- A name is reported when no value is to be. -/
theorem Vars.Points.callField (h : v.Points data p)
    (hone : v.header_field_mark = none ∨ v.header_value_mark = none) :
    (v.callField (pointer p)).Points data p := by
  have hevents : Told data (v.callField (pointer p)).events p := by
    unfold Vars.callField
    cases hmark : v.header_field_mark with
    | none =>
      rw [Option.map_none, Option.toList_none, List.append_nil]
      exact h.1
    | some m =>
      obtain ⟨⟨x, rfl⟩, htold⟩ := h.2.1 m hmark
      rw [Option.map_some, Option.toList_some, since_append]
      exact htold.field
  refine ⟨hevents, fun m hm => absurd hm (Option.not_mem_none m), fun m hm => ?_⟩
  rcases hone with hfield | hvalue
  · unfold Vars.callField
    rw [hfield, Option.map_none, Option.toList_none, List.append_nil]
    exact h.2.2 m hm
  · exact absurd (hvalue ▸ hm) (Option.not_mem_none m)

theorem Vars.Points.callValue (h : v.Points data p) (hfield : v.header_field_mark = none) :
    (v.callValue (pointer p)).Points data p := by
  have hevents : Told data (v.callValue (pointer p)).events p := by
    unfold Vars.callValue
    cases hmark : v.header_value_mark with
    | none =>
      rw [Option.map_none, Option.toList_none, List.append_nil]
      exact h.1
    | some m =>
      obtain ⟨⟨x, rfl⟩, htold⟩ := h.2.2 m hmark
      rw [Option.map_some, Option.toList_some, since_append]
      exact htold.value
  refine ⟨hevents, fun m hm => ?_, fun m hm => absurd hm (Option.not_mem_none m)⟩
  exact absurd (hfield ▸ hm) (Option.not_mem_none m)

theorem Vars.Points.newMessage (h : v.Points data p) : v.newMessage.Points data p :=
  ⟨h.1.complete, fun m hm => ⟨(h.2.1 m hm).1, (h.2.1 m hm).2.complete⟩,
    fun m hm => ⟨(h.2.2 m hm).1, (h.2.2 m hm).2.complete⟩⟩

theorem messageDone_points (h : v.Points data p) : (messageDone v).All (Vars.Points data p) := by
  unfold messageDone
  split <;> exact h.newMessage

theorem headersDone_points (h : v.Points data p) : (headersDone ch v).All (Vars.Points data p) := by
  unfold headersDone
  split
  · exact h
  · dsimp only
    repeat' split
    all_goals first
      | exact h
      | exact Vars.Points.newMessage h

theorem headersAlmostDone_points (h : v.Points data p) :
    (headersAlmostDone ch v).All (Vars.Points data p) := by
  unfold headersAlmostDone
  split
  · exact h
  · dsimp only
    split
    · exact messageDone_points (v := v.update .s_message_done) h
    · split
      · exact h
      · exact headersDone_points h

theorem headerFieldStart_points (h : v.Points data p) :
    (headerFieldStart (pointer p) ch v).All (Vars.Points data p) := by
  unfold headerFieldStart
  split
  · exact h
  · split
    · exact headersAlmostDone_points (v := v.update .s_headers_almost_done) h
    · split
      · exact h
      · exact h.markField

theorem headerValueStart_points (h : v.Points data p) :
    (headerValueStart (pointer p) ch v).All (Vars.Points data p) := by
  unfold headerValueStart
  dsimp only
  split <;> exact h.markValue

theorem headerValueLws_points (h : v.Points data p) :
    (headerValueLws (pointer p) ch v).All (Vars.Points data p) := by
  unfold headerValueLws
  split
  · refine headerValueStart_points ?_
    split <;> exact h
  · exact headerFieldStart_points (v := Vars.update _ .s_header_field_start) h

theorem headerValueDiscardLws_points (h : v.Points data p)
    (hfield : v.header_field_mark = none) :
    (headerValueDiscardLws (pointer p) ch v).All (Vars.Points data p) := by
  unfold headerValueDiscardLws
  split
  · exact h
  · split
    · exact h
    · refine headerFieldStart_points (Vars.Points.callValue ?_ hfield)
      exact Vars.Points.markValue (v := Vars.setFlags v _) h

theorem urlChar_points (h : v.Points data p) : (urlChar ch v).All (Vars.Points data p) := by
  unfold urlChar
  dsimp only
  split <;> exact h

/-- **The `switch`** reports from marks to the place. -/
theorem switch_points (h : v.Points data p) (hmarked : v.Marked) :
    (switch (pointer p) ch v).All (Vars.Points data p) := by
  unfold switch
  cases hs : v.parser.state with
  | s_req_spaces_before_url =>
    dsimp only [reqSpacesBeforeUrl]
    split
    · exact h
    · refine urlChar_points ?_
      split <;> exact h
  | s_req_schema | s_req_schema_slash | s_req_schema_slash_slash | s_req_server_start =>
    dsimp only [reqSchema]
    split
    · exact h
    · exact urlChar_points h
  | s_req_server | s_req_server_with_at | s_req_path | s_req_query_string_start
  | s_req_query_string | s_req_fragment_start | s_req_fragment =>
    dsimp only [reqUrl]
    split
    · exact h
    · split
      · exact h
      · exact urlChar_points h
  | s_header_field_start => exact headerFieldStart_points h
  | s_header_value_discard_ws =>
    dsimp only [headerValueDiscardWs]
    split
    · exact h
    · split
      · exact h
      · split
        · exact h
        · exact headerValueStart_points h
  | s_header_value_discard_lws =>
    exact headerValueDiscardLws_points h (hmarked.blank hs (by decide)).2.1
  | s_header_value_start => exact headerValueStart_points h
  | s_header_value_lws => exact headerValueLws_points h
  | s_headers_almost_done => exact headersAlmostDone_points h
  | s_headers_done => exact headersDone_points h
  | s_message_done => exact messageDone_points h
  | _ =>
    dsimp only [startReq, reqMethod, reqHttpStart, Vars.expect, reqHttpMajor, reqHttpDot,
      reqHttpMinor, reqHttpEnd, reqLineAlmostDone, headerAlmostDone, chunkSizeStart, chunkSize,
      chunkParameters, chunkSizeAlmostDone, chunkDataAlmostDone, chunkDataDone]
    repeat' split
    all_goals first
      | exact h
      | trivial

end Cases

/-! ## The loop over the data -/

section Loop

variable {data : Bytes} {v : Vars Bytes}

theorem countHeaderSize_points {n : Nat} {k : Vars Bytes → Flow Bytes} {p : Bytes}
    (hv : v.Points data p)
    (hk : (k { v with parser := v.parser.addRead n }).All (Vars.Points data p)) :
    (countHeaderSize n v k).All (Vars.Points data p) := by
  unfold countHeaderSize
  dsimp only
  split
  · exact hv
  · exact hk

theorem headerField_points {start : Bytes} (h : v.Points data start)
    (hvalue : v.header_value_mark = none) :
    (headerField start v).1.All (Vars.Points data (headerField start v).2) := by
  unfold headerField
  split
  · trivial
  · exact h.advance List.nil_suffix
  · exact countHeaderSize_points (h.advance List.nil_suffix) (h.advance List.nil_suffix)
  · rename_i parser' ch p hscan
    have hat : v.Points data (ch :: p) := h.advance (scanField_suffix hscan)
    have hnext : v.Points data p := hat.advance (List.suffix_cons ch p)
    dsimp only
    refine countHeaderSize_points (v := { v with parser := _ }) hnext ?_
    split
    · exact Vars.Points.advance (Vars.Points.callField hat (.inr hvalue)) (List.suffix_cons ch p)
    · exact hnext

theorem headerValue_points {start : Bytes} (h : v.Points data start)
    (hfield : v.header_field_mark = none) :
    (headerValue start v).1.All (Vars.Points data (headerValue start v).2) := by
  unfold headerValue
  split
  · trivial
  · exact h.advance List.nil_suffix
  · exact countHeaderSize_points (h.advance List.nil_suffix) (h.advance List.nil_suffix)
  · rename_i parser' ch p hscan
    have hat : v.Points data (ch :: p) := h.advance (scanValue_suffix hscan)
    have hnext : v.Points data p := hat.advance (List.suffix_cons ch p)
    have hcalled : (v.callValue (pointer (ch :: p))).Points data p :=
      (hat.callValue hfield).advance (List.suffix_cons ch p)
    dsimp only
    split
    · exact countHeaderSize_points hcalled hcalled
    · dsimp only
      refine countHeaderSize_points (v := Vars.update _ _) hnext ?_
      unfold headerAlmostDone
      split <;> exact hcalled

theorem bodyIdentity_points {start : Bytes} (h : v.Points data start) :
    (bodyIdentity start v).1.All (Vars.Points data (bodyIdentity start v).2) := by
  unfold bodyIdentity
  dsimp only
  split
  · trivial
  · dsimp only
    have hnext := h.advance (List.drop_suffix (min v.parser.content_length start.length) start)
    split
    · exact messageDone_points (v := Vars.callBody _) hnext
    · exact hnext

theorem chunkData_points {start : Bytes} (h : v.Points data start) :
    (chunkData start v).1.All (Vars.Points data (chunkData start v).2) := by
  unfold chunkData
  dsimp only
  split
  · trivial
  · have hnext := h.advance (List.drop_suffix (min v.parser.content_length start.length) start)
    dsimp only
    split <;> exact hnext

/-- **A turn** reports from marks on, behind what has been reported. -/
theorem turn_points {ch : UInt8} {p : Bytes} (h : v.Points data (ch :: p)) (hmarked : v.Marked) :
    (turn ch p v).1.All (Vars.Points data (turn ch p v).2) := by
  unfold turn
  split
  · rename_i hs
    refine headerField_points h (hmarked.2.2.1.resolve_right ?_)
    rw [hs]
    decide
  · rename_i hs
    refine headerValue_points h (hmarked.2.1.resolve_right ?_)
    rw [hs]
    decide
  · exact bodyIdentity_points h
  · exact h.advance List.nil_suffix
  · exact chunkData_points h
  · exact (switch_points h hmarked).imp fun w hw => hw.advance (List.suffix_cons ch p)

theorem atEnd_told (h : v.Points data []) (hmarked : v.Marked) :
    Told data (atEnd (pointer []) v).events [] := by
  have hone : v.header_field_mark = none ∨ v.header_value_mark = none := by
    rcases hmarked.2.1 with hfield | hs
    · exact .inl hfield
    · refine .inr (hmarked.2.2.1.resolve_right ?_)
      rw [hs]
      decide
  unfold atEnd
  split
  · exact ((h.callField hone).callValue rfl).1
  · exact Told.start.later List.nil_suffix

theorem loop_told {p : Bytes} (h : v.Points data p) (hmarked : v.Marked)
    (hstage : v.parser.Stage 0) (hshort : v.Short) : Told data (loop v p).events [] := by
  have hcount : ∀ {v : Vars Bytes} {q : Bytes}, v.Points data q → v.countByte.Points data q := by
    intro v q h
    unfold Vars.countByte
    split <;> exact h
  fun_induction loop v p with
  | case1 => exact atEnd_told h hmarked
  | case2 => exact (hcount h).1.later List.nil_suffix
  | case3 v ch p u hfit v' hflow ih =>
    have hpoints := turn_points (hcount h) (countByte_marked hmarked)
    have hsound := turn_sound (countByte_marked hmarked) (countByte_stage hstage)
      (countByte_short hshort) ch p
    rw [hflow] at hpoints hsound
    exact ih hpoints hsound.1.1 hsound.1.2 hsound.2
  | case4 v ch p u hfit v' hflow | case5 v ch p u hfit e v' hflow =>
    have hpoints := turn_points (hcount h) (countByte_marked hmarked)
    rw [hflow] at hpoints
    exact hpoints.1.later List.nil_suffix
  | case6 => exact Told.start.later List.nil_suffix

/-- **What callbacks are given** is cut from the data, whatever it is: the names
and values lie in it one behind the other. -/
theorem reported_in_order (data : Bytes) : Told data (httpParserExecute data).events [] := by
  refine loop_told ⟨.start, ?_, ?_⟩ (Vars.Blank.marked ⟨rfl, rfl, rfl, rfl⟩) trivial (Nat.zero_le _)
  · exact fun m hm => absurd hm (Option.not_mem_none m)
  · exact fun m hm => absurd hm (Option.not_mem_none m)

end Loop

end LibuvServer.Http
