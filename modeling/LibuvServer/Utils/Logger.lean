import LibuvServer.Lib.Calendar
import LibuvServer.Lib.Decimal
import LibuvServer.Lib.Runs
import LibuvServer.Mylua.LuaValue
import Mathlib.Tactic.Common

/-!
# Log files

`utils/logger.cc`: one file is open at a time, and `Logger::log` opens another
when the day of the month is not the one it remembers. Days are those of
UTC+8.
-/

namespace LibuvServer.Utils.Logger

open LibuvServer.Lib LibuvServer.Lib.Calendar LibuvServer.Netbus LibuvServer.Mylua

/-- What `Logger::init` keeps. -/
structure Config where
  logPath : Bytes
  logPrefix : Bytes

/-- A call of `Logger::log`: its time, its message, and the descriptor the file
gets if it opens one. Descriptor 0 is the standard input. -/
structure Call where
  now : Nat
  message : Bytes
  descriptor : Nat
  descriptor_pos : 0 < descriptor

/-- `gFileHandle.result` with the name of the file behind it. -/
structure State where
  result : Nat
  file : Bytes
  gCurrrentDay : Nat

/-- A message, and the name of the file it was written to. -/
structure Written where
  message : Bytes
  file : Bytes
  deriving DecidableEq

def init : State where
  result := 0
  file := []
  gCurrrentDay := 0

/-- A number as `%4d` and `%02d` print it. -/
def pad (width : Nat) (fill : UInt8) (n : Nat) : Bytes :=
  List.replicate (width - (decimal n).length) fill ++ decimal n

/-- What `sprintf` makes of `%s%s.%4d%02d%02d.log`. -/
def logName (config : Config) (d : Date) : Bytes :=
  (config.logPath ++ config.logPrefix ++ strBytes ".") ++
    (pad 4 0x20 d.year ++ (pad 2 0x30 d.month ++ pad 2 0x30 d.day)) ++ strBytes ".log"

/-- `openLogFile`. The array for the name has 128 bytes. -/
def openLogFile (config : Config) (tm : Date) (descriptor : Nat) (s : State) : Option State :=
  let fileName := logName config tm
  if fileName.length < 128 then some { s with result := descriptor, file := fileName } else none

/-- The date of a time in UTC+8. -/
def localDate (now : Nat) : Date := date ((now + 8 * 60 * 60) / 86400)

/-- `prepareFile`. -/
def prepareFile (config : Config) (s : State) (call : Call) : Option State :=
  let tm := localDate call.now
  if s.result = 0 then openLogFile config tm call.descriptor { s with gCurrrentDay := tm.day }
  else if s.gCurrrentDay ≠ tm.day then
    openLogFile config tm call.descriptor { s with gCurrrentDay := tm.day }
  else some s

/-- `Logger::log`. -/
def log (config : Config) (s : State) (call : Call) : Option (State × List Written) :=
  (prepareFile config s call).map fun s => (s, [⟨call.message, s.file⟩])

/-- A message in the file of its own date. -/
def own (config : Config) (call : Call) : Written :=
  ⟨call.message, logName config (localDate call.now)⟩

/-- Every message goes to the file of its own date, and no name is too long. -/
def OwnFiles (config : Config) (calls : List Call) : Prop :=
  ∃ s, run (log config) (init, []) calls = some (s, calls.map (own config))

/-- The name of its file fits the array. -/
def Fits (config : Config) (call : Call) : Prop :=
  (logName config (localDate call.now)).length < 128

instance (config : Config) (call : Call) : Decidable (Fits config call) :=
  inferInstanceAs (Decidable (_ < _))

/-- The second call can see that its date is another one. -/
def Tells (a b : Call) : Prop :=
  (localDate a.now).day = (localDate b.now).day → localDate a.now = localDate b.now

/-! ## Names -/

/-- There is no blank in a number. -/
theorem blank_notMem_decimal (n : Int) : 0x20 ∉ decimal n :=
  notMem_decimal (by decide) (by decide) n

/-- Numbers padded with blanks can be told apart. -/
theorem pad_blank_inj {width m n : Nat} (h : pad width 0x20 m = pad width 0x20 n) : m = n := by
  have hfilter : ∀ k : Nat, (pad width 0x20 k).filter (· ≠ 0x20) = decimal k := by
    intro k
    rw [pad, List.filter_append, List.filter_eq_nil_iff.mpr, List.nil_append,
      List.filter_eq_self.mpr]
    · intro c hc
      exact decide_eq_true fun heq => blank_notMem_decimal k (heq ▸ hc)
    · intro c hc
      rw [List.eq_of_mem_replicate hc]
      decide
  have hdecimal : decimal m = decimal n := by rw [← hfilter m, h, hfilter n]
  exact Int.ofNat.inj (decimal_inj hdecimal)

/-- Two digits are enough for days and months. -/
theorem pad_two {n : Nat} (h : n < 100) :
    (pad 2 0x30 n).length = 2 ∧ parseNat (pad 2 0x30 n) = some n := by
  have hall : ∀ n < 100, (pad 2 0x30 n).length = 2 ∧ parseNat (pad 2 0x30 n) = some n := by
    decide +kernel
  exact hall n h

theorem pad_two_inj {m n : Nat} (hm : m < 100) (hn : n < 100)
    (h : pad 2 0x30 m = pad 2 0x30 n) : m = n := by
  have hparse := (pad_two hm).2
  rw [h, (pad_two hn).2, Option.some.injEq] at hparse
  exact hparse.symm

/-- **Every date has a file of its own.** -/
theorem logName_inj {config : Config} {d e : Date} (h : logName config d = logName config e) :
    d = e := by
  have hmonth := d.month_le
  have hmonth' := e.month_le
  have hday := d.day_le_31
  have hday' := e.day_le_31
  have hnumbers := List.append_cancel_left (List.append_cancel_right h)
  have hlength : (pad 2 0x30 d.month ++ pad 2 0x30 d.day).length =
      (pad 2 0x30 e.month ++ pad 2 0x30 e.day).length := by
    rw [List.length_append, List.length_append, (pad_two (by omega)).1, (pad_two (by omega)).1,
      (pad_two (by omega)).1, (pad_two (by omega)).1]
  obtain ⟨hyears, hrest⟩ := List.append_inj' hnumbers hlength
  obtain ⟨hmonths, hdays⟩ := List.append_inj hrest
    (by rw [(pad_two (by omega)).1, (pad_two (by omega)).1])
  exact Date.eq_of_numbers (pad_blank_inj hyears) (pad_two_inj (by omega) (by omega) hmonths)
    (pad_two_inj (by omega) (by omega) hdays)

/-! ## Calls -/

section Calls

variable {config : Config}

/-- The state after a call that went well. -/
def opened (config : Config) (descriptor : Nat) (call : Call) : State where
  result := descriptor
  file := logName config (localDate call.now)
  gCurrrentDay := (localDate call.now).day

/-- A call that opens a file writes to it. -/
theorem log_opens {s : State} {call : Call}
    (h : prepareFile config s call = openLogFile config (localDate call.now) call.descriptor
      { s with gCurrrentDay := (localDate call.now).day }) :
    log config s call =
      if Fits config call then some (opened config call.descriptor call, [own config call])
      else none := by
  rw [log, h]
  by_cases hfits : Fits config call
  · have hname : (logName config (localDate call.now)).length < 128 := hfits
    rw [openLogFile, if_pos hname, if_pos hfits]
    rfl
  · have hname : ¬ (logName config (localDate call.now)).length < 128 := hfits
    rw [openLogFile, if_neg hname, if_neg hfits]
    rfl

variable {descriptor : Nat} (hopen : 0 < descriptor) {a call : Call}

include hopen

/-- On the same day of the month the file stays. -/
theorem log_same (hday : (localDate a.now).day = (localDate call.now).day) :
    log config (opened config descriptor a) call =
      some (opened config descriptor a,
        [⟨call.message, logName config (localDate a.now)⟩]) := by
  have hresult : ¬ (opened config descriptor a).result = 0 := Nat.ne_of_gt hopen
  have hremembered : ¬ (opened config descriptor a).gCurrrentDay ≠ (localDate call.now).day :=
    not_not.mpr hday
  rw [log, prepareFile, if_neg hresult, if_neg hremembered]
  rfl

/-- On another one it is another file. -/
theorem log_other (hday : (localDate a.now).day ≠ (localDate call.now).day) :
    log config (opened config descriptor a) call =
      if Fits config call then some (opened config call.descriptor call, [own config call])
      else none := by
  have hresult : ¬ (opened config descriptor a).result = 0 := Nat.ne_of_gt hopen
  have hremembered : (opened config descriptor a).gCurrrentDay ≠ (localDate call.now).day := hday
  apply log_opens
  rw [prepareFile, if_neg hresult, if_pos hremembered]

/-- From one call on: the rest goes to its own files when no two calls in a row
are on the same day of different months. -/
theorem run_own_iff (hfits : Fits config a) (calls : List Call) (trace : List Written) :
    (∃ s, run (log config) (opened config descriptor a, trace) calls =
        some (s, trace ++ calls.map (own config))) ↔
      (∀ call ∈ calls, Fits config call) ∧ List.IsChain Tells (a :: calls) := by
  induction calls generalizing descriptor a trace with
  | nil =>
    rw [List.map_nil, List.append_nil]
    exact iff_of_true ⟨_, rfl⟩ ⟨by simp, List.IsChain.singleton a⟩
  | cons call calls ih =>
    rw [List.map_cons, List.append_cons, List.forall_mem_cons, List.isChain_cons_cons]
    by_cases hday : (localDate a.now).day = (localDate call.now).day
    · rw [run_cons (log_same hopen hday)]
      by_cases hdate : localDate a.now = localDate call.now
      · -- the file that is open is the right one
        have hown : (⟨call.message, logName config (localDate a.now)⟩ : Written) =
            own config call := by rw [hdate, own]
        have hstate : opened config descriptor a = opened config descriptor call := by
          rw [opened, hdate, opened]
        have hfits' : Fits config call := by
          rw [Fits, ← hdate]
          exact hfits
        have htells : Tells a call := fun _ => hdate
        rw [hown, hstate, ih hopen hfits', and_iff_right hfits', and_iff_right htells]
      · refine iff_of_false ?_ fun h => hdate (h.2.1 hday)
        rintro ⟨s, hrun⟩
        obtain ⟨more, hmore⟩ := run_extends hrun
        rw [List.append_assoc, List.append_assoc, List.append_cancel_left_eq] at hmore
        have hwritten := congrArg Written.file (List.cons.inj hmore).1
        exact hdate (logName_inj hwritten.symm)
    · have htells : Tells a call := fun heq => absurd heq hday
      by_cases hfits' : Fits config call
      · rw [run_cons ((log_other hopen hday).trans (if_pos hfits')),
          ih call.descriptor_pos hfits', and_iff_right hfits', and_iff_right htells]
      · have hnone :
            run (log config) (opened config descriptor a, trace) (call :: calls) = none := by
          rw [run, record, log_other hopen hday, if_neg hfits']
          rfl
        rw [hnone]
        exact iff_of_false (by simp) fun h => hfits' h.1.1

end Calls

/-- **Every message goes to the file of its own date** exactly when the names
fit and no two calls in a row are on the same day of different months. -/
theorem ownFiles_iff (config : Config) (calls : List Call) :
    OwnFiles config calls ↔ (∀ call ∈ calls, Fits config call) ∧ List.IsChain Tells calls := by
  cases calls with
  | nil => exact iff_of_true ⟨init, rfl⟩ ⟨by simp, List.IsChain.nil⟩
  | cons call calls =>
    have hfirst : prepareFile config init call = openLogFile config (localDate call.now)
        call.descriptor { init with gCurrrentDay := (localDate call.now).day } := rfl
    have hlog := log_opens hfirst
    rw [OwnFiles, List.forall_mem_cons]
    by_cases hfits : Fits config call
    · rw [run_cons (hlog.trans (if_pos hfits)), and_iff_right hfits]
      exact run_own_iff call.descriptor_pos hfits calls [own config call]
    · have hnone : run (log config) (init, []) (call :: calls) = none := by
        rw [run, record, hlog, if_neg hfits]
        rfl
      rw [hnone]
      exact iff_of_false (by simp) fun h => hfits h.1.1

/-- The fifteenth of January and the fifteenth of February 2024. -/
def fifteenths : List Call :=
  [⟨1705276800, strBytes "new year", 3, by decide⟩, ⟨1707955200, strBytes "carnival", 4, by decide⟩]

/-- The second message goes to the file of the first. -/
theorem ownFiles_fifteenths :
    List.IsChain (fun a b => a.now ≤ b.now) fifteenths ∧
      ¬ OwnFiles ⟨strBytes "logs/", strBytes "gateway"⟩ fifteenths := by
  refine ⟨by decide, ?_⟩
  rintro ⟨s, hrun⟩
  have hwritten : (run (log ⟨strBytes "logs/", strBytes "gateway"⟩) (init, []) fifteenths).map
      Prod.snd = some (fifteenths.map (own ⟨strBytes "logs/", strBytes "gateway"⟩)) := by
    rw [hrun]
    rfl
  exact absurd hwritten (by decide +kernel)

end LibuvServer.Utils.Logger
