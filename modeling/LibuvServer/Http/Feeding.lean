import LibuvServer.Http.Bytewise
import Mathlib.Tactic.Common

/-!
# The parser fed with bytes

The parser without the data: a mark is what has come since, and a byte goes
behind every mark that is set. On data that is not longer than a header may be,
`http_parser_execute` comes to what this machine comes to.
-/

namespace LibuvServer.Http

open LibuvServer.Netbus

/-! ## The machine -/

/-- A mark that has just been set is followed by nothing. -/
def collected : Place Bytes := ⟨[], id⟩

/-- A byte goes behind every mark. -/
def Vars.grow (ch : UInt8) (v : Vars Bytes) : Vars Bytes := v.map (· ++ [ch])

def feed (v : Vars Bytes) (ch : UInt8) : Flow Bytes :=
  match byteTurn collected ch v.countByte with
  | .next v' => .next (v'.grow ch)
  | flow => flow

def feedAll (v : Vars Bytes) : Bytes → Executed
  | [] => atEnd collected v
  | ch :: p => (feed v ch).resume (feedAll · p)

/-- The locals after some bytes, when the loop goes on behind them. -/
def fed (v : Vars Bytes) : Bytes → Option (Vars Bytes)
  | [] => some v
  | ch :: p =>
    match feed v ch with
    | .next w => fed w p
    | _ => none

theorem fed_append {v w : Vars Bytes} {a : Bytes} (h : fed v a = some w) (b : Bytes) :
    fed v (a ++ b) = fed w b := by
  induction a generalizing v with
  | nil =>
    cases h
    rfl
  | cons ch a ih =>
    rw [List.cons_append, fed]
    rw [fed] at h
    cases hflow : feed v ch with
    | next u =>
      rw [hflow] at h
      exact ih h
    | ret | error | faulted =>
      rw [hflow] at h
      cases h

theorem feedAll_append {v w : Vars Bytes} {a : Bytes} (h : fed v a = some w) (b : Bytes) :
    feedAll v (a ++ b) = feedAll w b := by
  induction a generalizing v with
  | nil =>
    cases h
    rfl
  | cons ch a ih =>
    rw [List.cons_append, feedAll]
    rw [fed] at h
    cases hflow : feed v ch with
    | next u =>
      rw [hflow] at h
      exact ih h
    | ret | error | faulted =>
      rw [hflow] at h
      cases h

/-! ## Pointers -/

theorem since_append (a p : Bytes) : (pointer p).since (a ++ p) = a := by
  show (a ++ p).take ((a ++ p).length - p.length) = a
  rw [List.length_append, Nat.add_sub_cancel, List.take_left]

/-- A pointer that goes on by a byte. -/
theorem since_advance {ch : UInt8} {m p : Bytes} (h : ch :: p <:+ m) :
    (pointer p).since m = (pointer (ch :: p)).since m ++ [ch] := by
  obtain ⟨a, rfl⟩ := h
  rw [since_append, List.append_cons, since_append]

theorem pointer_agree (p : Bytes) : (pointer p).Agree (pointer p).since collected where
  here := (since_append [] p).symm
  since _ := rfl

/-- The machine that stands for the parser at a pointer. -/
def Vars.at (p : Bytes) (v : Vars Bytes) : Vars Bytes := v.map (pointer p).since

theorem Vars.Marks.at_advance {v : Vars Bytes} {ch : UInt8} {p : Bytes}
    (h : v.Marks (ch :: p <:+ ·)) : v.at p = (v.at (ch :: p)).grow ch := by
  rw [Vars.at, Vars.at, Vars.grow, Vars.map_map]
  exact h.map_congr fun m hm => since_advance hm

theorem atEnd_map {Mark Mark' : Type} {f : Mark → Mark'} {place : Place Mark}
    {place' : Place Mark'} (h : place.Agree f place') (v : Vars Mark) :
    atEnd place' (v.map f) = atEnd place v := by
  unfold atEnd
  rw [Vars.map_callField h, Vars.map_callValue h]
  simp only [Vars.map, Option.isSome_map]

theorem Vars.map_countByte {Mark Mark' : Type} (f : Mark → Mark') (v : Vars Mark) :
    (v.map f).countByte = v.countByte.map f := by
  unfold Vars.countByte
  rw [Vars.parser_map]
  split <;> rfl

theorem Vars.Marks.countByte {P : Bytes → Prop} {v : Vars Bytes} (h : v.Marks P) :
    v.countByte.Marks P := by
  unfold Vars.countByte
  split
  · exact ⟨h.header_field_mark, h.header_value_mark, h.url_mark, h.body_mark⟩
  · exact h

/-- Marks point into the data that has come, so the steps are those of the machine. -/
theorem steps_eq_feedAll {v : Vars Bytes} {p : Bytes} (h : v.Marks (p <:+ ·)) :
    steps v p = feedAll (v.at p) p := by
  induction p generalizing v with
  | nil => exact (atEnd_map (pointer_agree []) v).symm
  | cons ch p ih =>
    rw [steps, feedAll, feed, Vars.at, Vars.map_countByte, byteTurn_map (pointer_agree (ch :: p))]
    cases hflow : byteTurn (pointer (ch :: p)) ch v.countByte with
    | next w =>
      have hmarks : w.Marks (ch :: p <:+ ·) :=
        byteTurn_marks h.countByte (List.suffix_refl _) hflow
      have hnext := ih (hmarks.mono fun m hm => (List.suffix_cons ch p).trans hm)
      rw [hmarks.at_advance] at hnext
      exact hnext
    | ret | error | faulted => rfl

/-- **Byte by byte.** On data that is no longer than a header may be, the loops
that look ahead and the pointers make no difference. -/
theorem execute_bytewise {data : Bytes} (h : data.length ≤ HTTP_MAX_HEADER_SIZE) :
    httpParserExecute data = feedAll {} data := by
  have hfit : ({} : Vars Bytes).Fits data := by
    show 0 + data.length ≤ HTTP_MAX_HEADER_SIZE
    rwa [Nat.zero_add]
  have hmarks : ({} : Vars Bytes).Marks (data <:+ ·) :=
    ⟨fun _ h => absurd h (Option.not_mem_none _), fun _ h => absurd h (Option.not_mem_none _),
      fun _ h => absurd h (Option.not_mem_none _), fun _ h => absurd h (Option.not_mem_none _)⟩
  rw [httpParserExecute, loop_eq_steps hfit (Nat.zero_le _), steps_eq_feedAll hmarks]
  rfl

end LibuvServer.Http
