import LibuvServer.Lib.Runs
import LibuvServer.Netbus.ServiceManager
import Mathlib.Data.List.FinRange
import Mathlib.Logic.Function.Basic

/-!
# Closing a session

`Session_uv::close` of `netbus/session_uv.cc` with everything it calls. The
services are told one after the other, and what the handler of one does is
arbitrary: it may close this session or another one before it returns. The
calls of `close` that have not returned are a stack. `isShotdown` is set only
after the services have been told, so a handler that closes the session it is
told about starts all over.
-/

namespace LibuvServer.Netbus.Closing

open LibuvServer.Lib

/-- A call of `close`: who is still to be told, and whether the service told
last has not returned. -/
structure Frame where
  session : Nat
  untold : List Nat
  handling : Bool

structure State where
  stack : List Frame
  isShotdown : Nat → Bool
  /-- Shutdown requests whose callback has not been called, by session. -/
  shutdowns : Nat → Nat
  /-- And handles that are being closed. -/
  closes : Nat → Nat

/-- What is done to services, handles and sessions. -/
inductive Action where
  | disconnectService (s : Nat) (stype : Nat)
  | uvShutdown (s : Nat)
  | uvClose (s : Nat)
  | destroy (s : Nat)
  deriving DecidableEq

/-- What happens next: `close` is called, the next service is told, its
handler returns, `close` comes to the shutdown, whose request may be
refused, and libuv calls back. -/
inductive Event where
  | close (s : Nat)
  | tell
  | handled
  | finish (refused : Bool)
  | shutdownDone (s : Nat)
  | closeDone (s : Nat)

def init : State where
  stack := []
  isShotdown _ := false
  shutdowns _ := 0
  closes _ := 0

/-- No `close` is running, or a handler that was called by one. -/
def State.calling (c : State) : Bool :=
  match c.stack with
  | [] => true
  | f :: _ => f.handling

/-- The services `sessionDisconnect` tells. -/
def toldTypes {Session Message : Type} (set : ServiceSet Session Message) : List Nat :=
  (ServiceManager.sessionDisconnect set).map (·.2)

/-- One event, if it can happen now. The flag of a session that is destroyed
stays set, so that closing it again does nothing here; in the code the pointer
may by then be another session's. -/
def step (types : List Nat) (c : State) : Event → Option (State × List Action)
  | .close s =>
    if c.calling then
      if c.isShotdown s then some (c, [])
      else some ({ c with stack := ⟨s, types, false⟩ :: c.stack }, [])
    else none
  | .tell =>
    match c.stack with
    | ⟨s, stype :: untold, false⟩ :: stack =>
      some ({ c with stack := ⟨s, untold, true⟩ :: stack }, [.disconnectService s stype])
    | _ => none
  | .handled =>
    match c.stack with
    | ⟨s, untold, true⟩ :: stack => some ({ c with stack := ⟨s, untold, false⟩ :: stack }, [])
    | _ => none
  | .finish refused =>
    match c.stack with
    | ⟨s, [], false⟩ :: stack =>
      let c := { c with stack := stack, isShotdown := Function.update c.isShotdown s true }
      if refused then
        some ({ c with closes := Function.update c.closes s (c.closes s + 1) },
          [.uvShutdown s, .uvClose s])
      else
        some ({ c with shutdowns := Function.update c.shutdowns s (c.shutdowns s + 1) },
          [.uvShutdown s])
    | _ => none
  | .shutdownDone s =>
    if c.stack.isEmpty ∧ 0 < c.shutdowns s then
      some ({ c with
          shutdowns := Function.update c.shutdowns s (c.shutdowns s - 1)
          closes := Function.update c.closes s (c.closes s + 1) }, [.uvClose s])
    else none
  | .closeDone s =>
    if c.stack.isEmpty ∧ 0 < c.closes s then
      some ({ c with closes := Function.update c.closes s (c.closes s - 1) }, [.destroy s])
    else none

def run (types : List Nat) (events : List Event) : Option (State × List Action) :=
  Lib.run (step types) (init, []) events

/-! ## What is said of a run -/

/-- A session is closed once: whoever is told of it is told once, and all the
services have been when its handle is shut down. -/
structure Once (types : List Nat) (c : State) (trace : List Action) (s : Nat) : Prop where
  told : ∀ stype, trace.count (.disconnectService s stype) ≤ 1
  all : c.isShotdown s = true → ∀ stype ∈ types, trace.count (.disconnectService s stype) = 1
  shutdown : trace.count (.uvShutdown s) = if c.isShotdown s then 1 else 0
  closed : trace.count (.uvClose s) ≤ 1
  destroyed : trace.count (.destroy s) ≤ 1

/-- No handler closes a session while the services are being told of it. -/
def Flat (c : State × List Action) : Event → Prop
  | .close s => ∀ f ∈ c.1.stack, f.session ≠ s
  | _ => True

instance (c : State × List Action) (e : Event) : Decidable (Flat c e) :=
  match e with
  | .close _ => inferInstanceAs (Decidable (∀ _ ∈ _, _))
  | .tell | .handled | .finish _ | .shutdownDone _ | .closeDone _ => .isTrue trivial

/-- The services told about the session, in order. -/
def Action.told (s : Nat) : Action → Option Nat
  | .disconnectService x stype => if x = s then some stype else none
  | _ => none

def told (trace : List Action) (s : Nat) : List Nat := trace.filterMap (Action.told s)

/-- How far every session has come. -/
structure ClosingOk (types : List Nat) (c : State) (trace : List Action) : Prop where
  nodup : (c.stack.map Frame.session).Nodup
  busy : ∀ f ∈ c.stack, c.isShotdown f.session = false ∧
    told trace f.session ++ f.untold = types
  untouched : ∀ s, c.isShotdown s = false → (∀ f ∈ c.stack, f.session ≠ s) → told trace s = []
  closed : ∀ s, c.isShotdown s = true → told trace s = types
  shutdown : ∀ s, trace.count (.uvShutdown s) = if c.isShotdown s then 1 else 0
  closing : ∀ s, trace.count (.uvClose s) + c.shutdowns s = trace.count (.uvShutdown s)
  destroying : ∀ s, trace.count (.destroy s) + c.closes s = trace.count (.uvClose s)

/-! ## Steps -/

section Steps

variable {types : List Nat} {c c' : State} {trace out : List Action} {s : Nat}

theorem told_append (trace out : List Action) (s : Nat) :
    told (trace ++ out) s = told trace s ++ told out s := List.filterMap_append

/-- Actions by which no service is told of the session. -/
theorem told_append_of_none (h : ∀ a ∈ out, a.told s = none) :
    told (trace ++ out) s = told trace s := by
  have hnone : told out s = [] := List.filterMap_eq_nil_iff.mpr h
  rw [told_append, hnone, List.append_nil]

/-- The services that are told of a session are counted in `told`. -/
theorem count_told (trace : List Action) (s stype : Nat) :
    trace.count (.disconnectService s stype) = (told trace s).count stype := by
  induction trace with
  | nil => rfl
  | cons a trace ih =>
    have hcons : told (a :: trace) s = (a.told s).toList ++ told trace s := by
      cases ha : a.told s <;> simp [told, ha]
    rw [hcons, List.count_append, List.count_cons, ih, Nat.add_comm]
    congr 1
    cases a with
    | disconnectService x stype' =>
      by_cases hx : x = s
      · by_cases hstype : stype' = stype <;> simp [Action.told, hx, hstype]
      · simp [Action.told, hx]
    | uvShutdown _ => rfl
    | uvClose _ => rfl
    | destroy _ => rfl

/-- Libuv's callbacks and refusals leave the services alone. -/
theorem ClosingOk.libuv (h : ClosingOk types c trace) (hstack : c'.stack = c.stack)
    (hshut : c'.isShotdown = c.isShotdown) (hout : ∀ a ∈ out, ∀ s, a.told s = none)
    (hshutdown : ∀ s, out.count (.uvShutdown s) = 0)
    (hclosing : ∀ s, out.count (.uvClose s) + c'.shutdowns s = c.shutdowns s)
    (hdestroying : ∀ s,
      out.count (.destroy s) + c'.closes s = c.closes s + out.count (.uvClose s)) :
    ClosingOk types c' (trace ++ out) where
  nodup := by
    rw [hstack]
    exact h.nodup
  busy f hf := by
    rw [hstack] at hf
    rw [hshut, told_append_of_none fun a ha => hout a ha f.session]
    exact h.busy f hf
  untouched s hopen hs := by
    rw [hshut] at hopen
    rw [hstack] at hs
    rw [told_append_of_none fun a ha => hout a ha s]
    exact h.untouched s hopen hs
  closed s hs := by
    rw [hshut] at hs
    rw [told_append_of_none fun a ha => hout a ha s]
    exact h.closed s hs
  shutdown s := by
    rw [List.count_append, hshutdown, hshut]
    exact h.shutdown s
  closing s := by
    have hold := h.closing s
    have hnew := hclosing s
    rw [List.count_append, List.count_append, hshutdown]
    omega
  destroying s := by
    have hold := h.destroying s
    have hnew := hdestroying s
    rw [List.count_append, List.count_append]
    omega

/-- A session that is being closed is on the stack once. -/
theorem ClosingOk.others (h : ClosingOk types c trace) {f : Frame} {stack : List Frame}
    (hstack : c.stack = f :: stack) : ∀ f' ∈ stack, f'.session ≠ f.session := by
  have hnodup := h.nodup
  rw [hstack, List.map_cons, List.nodup_cons] at hnodup
  intro f' hf' heq
  exact hnodup.1 (heq ▸ List.mem_map_of_mem hf')

/-- The running call of `close`. -/
theorem ClosingOk.running (h : ClosingOk types c trace) {f : Frame} {stack : List Frame}
    (hstack : c.stack = f :: stack) :
    c.isShotdown f.session = false ∧ told trace f.session ++ f.untold = types :=
  h.busy f (by rw [hstack]; exact List.mem_cons_self)

/-- The calls it came in between. -/
theorem ClosingOk.below (h : ClosingOk types c trace) {f f' : Frame} {stack : List Frame}
    (hstack : c.stack = f :: stack) (hf : f' ∈ stack) :
    c.isShotdown f'.session = false ∧ told trace f'.session ++ f'.untold = types :=
  h.busy f' (by rw [hstack]; exact List.mem_cons_of_mem _ hf)

/-- No service is told of a session that has no call of its own. -/
theorem ClosingOk.untold (h : ClosingOk types c trace) {f : Frame} {stack : List Frame}
    (hstack : c.stack = f :: stack) {x : Nat} (hopen : c.isShotdown x = false)
    (hne : x ≠ f.session) (hnone : ∀ f' ∈ stack, f'.session ≠ x) : told trace x = [] := by
  refine h.untouched x hopen fun f' hf => ?_
  rw [hstack] at hf
  rcases List.mem_cons.mp hf with rfl | hold
  · exact Ne.symm hne
  · exact hnone f' hold

/-- `close` is called. -/
theorem ClosingOk.close (h : ClosingOk types c trace) (hflat : ∀ f ∈ c.stack, f.session ≠ s)
    (hopen : c.isShotdown s = false) :
    ClosingOk types { c with stack := ⟨s, types, false⟩ :: c.stack } trace where
  nodup := by
    rw [List.map_cons, List.nodup_cons]
    refine ⟨fun hmem => ?_, h.nodup⟩
    obtain ⟨f, hf, heq⟩ := List.mem_map.mp hmem
    exact hflat f hf heq
  busy f hf := by
    rcases List.mem_cons.mp hf with rfl | hold
    · refine ⟨hopen, ?_⟩
      rw [h.untouched s hopen hflat, List.nil_append]
    · exact h.busy f hold
  untouched x hx hnone := h.untouched x hx fun f hf => hnone f (List.mem_cons_of_mem _ hf)
  closed := h.closed
  shutdown := h.shutdown
  closing := h.closing
  destroying := h.destroying

/-- A service is told. -/
theorem ClosingOk.tell (h : ClosingOk types c trace) {stype : Nat} {untold : List Nat}
    {stack : List Frame} (hstack : c.stack = ⟨s, stype :: untold, false⟩ :: stack) :
    ClosingOk types { c with stack := ⟨s, untold, true⟩ :: stack }
      (trace ++ [.disconnectService s stype]) := by
  obtain ⟨hopen, htold⟩ := h.running hstack
  have hne : ∀ x, x ≠ s → told (trace ++ [.disconnectService s stype]) x = told trace x := by
    intro x hx
    refine told_append_of_none fun a ha => ?_
    rw [List.mem_singleton.mp ha]
    exact if_neg (Ne.symm hx)
  refine ⟨?_, ?_, ?_, ?_, ?_, ?_, ?_⟩
  · have hnodup := h.nodup
    rw [hstack] at hnodup
    exact hnodup
  · intro f hf
    rcases List.mem_cons.mp hf with rfl | hold
    · refine ⟨hopen, ?_⟩
      rw [told_append]
      simpa [told, Action.told] using htold
    · rw [hne f.session (h.others hstack f hold)]
      exact h.below hstack hold
  · intro x hx hnone
    have hxs : x ≠ s := Ne.symm (hnone _ List.mem_cons_self)
    rw [hne x hxs]
    exact h.untold hstack hx hxs fun f hf => hnone f (List.mem_cons_of_mem _ hf)
  · intro x hx
    have hxs : x ≠ s := by
      rintro rfl
      rw [hopen] at hx
      cases hx
    rw [hne x hxs]
    exact h.closed x hx
  · intro x
    simpa using h.shutdown x
  · intro x
    simpa using h.closing x
  · intro x
    simpa using h.destroying x

/-- The handler of a service returns. -/
theorem ClosingOk.handled (h : ClosingOk types c trace) {untold : List Nat} {stack : List Frame}
    (hstack : c.stack = ⟨s, untold, true⟩ :: stack) :
    ClosingOk types { c with stack := ⟨s, untold, false⟩ :: stack } trace := by
  obtain ⟨hopen, htold⟩ := h.running hstack
  refine ⟨?_, ?_, ?_, h.closed, h.shutdown, h.closing, h.destroying⟩
  · have hnodup := h.nodup
    rw [hstack] at hnodup
    exact hnodup
  · intro f hf
    rcases List.mem_cons.mp hf with rfl | hold
    · exact ⟨hopen, htold⟩
    · exact h.below hstack hold
  · intro x hx hnone
    have hxs : x ≠ s := Ne.symm (hnone _ List.mem_cons_self)
    exact h.untold hstack hx hxs fun f hf => hnone f (List.mem_cons_of_mem _ hf)

/-- `close` comes to the shutdown. -/
theorem ClosingOk.finish (h : ClosingOk types c trace) {stack : List Frame}
    (hstack : c.stack = ⟨s, [], false⟩ :: stack) :
    ClosingOk types
      { c with
        stack := stack
        isShotdown := Function.update c.isShotdown s true
        shutdowns := Function.update c.shutdowns s (c.shutdowns s + 1) }
      (trace ++ [.uvShutdown s]) := by
  obtain ⟨hopen, htold⟩ := h.running hstack
  have hsame : ∀ x, told (trace ++ [.uvShutdown s]) x = told trace x := by
    intro x
    refine told_append_of_none fun a ha => ?_
    rw [List.mem_singleton.mp ha]
    rfl
  refine ⟨?_, ?_, ?_, ?_, ?_, ?_, ?_⟩
  · have hnodup := h.nodup
    rw [hstack, List.map_cons, List.nodup_cons] at hnodup
    exact hnodup.2
  · intro f hf
    rw [hsame]
    simp only [Function.update_of_ne (h.others hstack f hf)]
    exact h.below hstack hf
  · intro x hx hnone
    have hxs : x ≠ s := by
      rintro rfl
      simp at hx
    simp only [Function.update_of_ne hxs] at hx
    rw [hsame]
    exact h.untold hstack hx hxs hnone
  · intro x hx
    rw [hsame]
    by_cases hxs : x = s
    · rw [hxs]
      simpa using htold
    · simp only [Function.update_of_ne hxs] at hx
      exact h.closed x hx
  · intro x
    have hold := h.shutdown x
    by_cases hxs : x = s
    · subst hxs
      rw [hopen] at hold
      simp only [List.count_append, hold]
      simp
    · simp only [List.count_append, Function.update_of_ne hxs, hold]
      simp [Ne.symm hxs]
  · intro x
    have hold := h.closing x
    by_cases hxs : x = s
    · subst hxs
      simp only [List.count_append, Function.update_self, List.count_singleton]
      simp
      omega
    · simp only [List.count_append, Function.update_of_ne hxs]
      simp [Ne.symm hxs, hold]
  · intro x
    have hold := h.destroying x
    simpa using hold

/-- One `uv_close`, of a handle whose shutdown is over or was refused. -/
theorem ClosingOk.uvClose (h : ClosingOk types c trace) (s : Nat) (shutdowns : Nat → Nat)
    (hshutdowns : ∀ x, [Action.uvClose s].count (.uvClose x) + shutdowns x = c.shutdowns x) :
    ClosingOk types
      { c with
        shutdowns := shutdowns
        closes := Function.update c.closes s (c.closes s + 1) } (trace ++ [.uvClose s]) := by
  refine h.libuv rfl rfl ?_ ?_ hshutdowns ?_
  · intro a ha x
    rw [List.mem_singleton.mp ha]
    rfl
  · exact fun _ => rfl
  · intro x
    by_cases hx : x = s
    · subst hx
      simp
    · simp [Function.update_of_ne hx, Ne.symm hx]

/-- **Every event** keeps the sessions, as long as none is closed while the
services are being told of it. -/
theorem ClosingOk.step (h : ClosingOk types c trace) {e : Event} (hflat : Flat (c, trace) e)
    (hstep : step types c e = some (c', out)) : ClosingOk types c' (trace ++ out) := by
  cases e with
  | close s =>
    simp only [Closing.step] at hstep
    split at hstep
    · split at hstep
      · cases hstep
        rw [List.append_nil]
        exact h
      · cases hstep
        rw [List.append_nil]
        exact h.close hflat (by simpa using ‹¬ c.isShotdown s = true›)
    · cases hstep
  | tell =>
    simp only [Closing.step] at hstep
    split at hstep
    · cases hstep
      exact h.tell ‹_›
    · cases hstep
  | handled =>
    simp only [Closing.step] at hstep
    split at hstep
    · rename_i s untold stack hstack
      cases hstep
      rw [List.append_nil]
      exact h.handled hstack
    · cases hstep
  | finish refused =>
    simp only [Closing.step] at hstep
    split at hstep
    · rename_i s stack hstack
      have hfinish := h.finish hstack
      cases refused with
      | true =>
        cases hstep
        have hclose := hfinish.uvClose s c.shutdowns ?_
        · rw [List.append_assoc] at hclose
          exact hclose
        · intro x
          by_cases hx : x = s
          · subst hx
            simp [Nat.add_comm]
          · simp [Function.update_of_ne hx, Ne.symm hx]
      | false =>
        cases hstep
        exact hfinish
    · cases hstep
  | shutdownDone s =>
    simp only [Closing.step] at hstep
    split at hstep
    · rename_i hdone
      cases hstep
      refine h.uvClose s _ fun x => ?_
      by_cases hx : x = s
      · subst hx
        simp
        omega
      · simp [Function.update_of_ne hx, Ne.symm hx]
    · cases hstep
  | closeDone s =>
    simp only [Closing.step] at hstep
    split at hstep
    · rename_i hdone
      cases hstep
      refine h.libuv rfl rfl ?_ ?_ ?_ ?_
      · intro a ha x
        rw [List.mem_singleton.mp ha]
        rfl
      · exact fun _ => rfl
      · exact fun _ => Nat.zero_add _
      · intro x
        by_cases hx : x = s
        · subst hx
          simp
          omega
        · simp [Function.update_of_ne hx, Ne.symm hx]
    · cases hstep

theorem ClosingOk.init (types : List Nat) : ClosingOk types init [] where
  nodup := List.nodup_nil
  busy _ h := by cases h
  untouched _ _ _ := rfl
  closed _ h := by cases h
  shutdown _ := rfl
  closing _ := rfl
  destroying _ := rfl

theorem ClosingOk.once (h : ClosingOk types c trace) (htypes : types.Nodup) (s : Nat) :
    Once types c trace s := by
  have hshutdown := h.shutdown s
  have hclosing := h.closing s
  have hdestroying := h.destroying s
  have hone : trace.count (.uvShutdown s) ≤ 1 := by
    rw [hshutdown]
    split <;> omega
  have hpart : (told trace s).Sublist types := by
    by_cases hshut : c.isShotdown s = true
    · rw [h.closed s hshut]
    · by_cases hstack : ∃ f ∈ c.stack, f.session = s
      · obtain ⟨f, hf, rfl⟩ := hstack
        rw [← (h.busy f hf).2]
        exact List.sublist_append_left ..
      · rw [h.untouched s (by simpa using hshut) fun f hf heq => hstack ⟨f, hf, heq⟩]
        exact List.nil_sublist types
  refine ⟨fun stype => ?_, fun hshut stype hmem => ?_, hshutdown, by omega, by omega⟩
  · rw [count_told]
    exact List.nodup_iff_count_le_one.mp (htypes.sublist hpart) stype
  · rw [count_told, h.closed s hshut]
    exact List.count_eq_one_of_mem htypes hmem

end Steps

theorem nodup_toldTypes {Session Message : Type} (set : ServiceSet Session Message) :
    (toldTypes set).Nodup := by
  unfold toldTypes ServiceManager.sessionDisconnect
  rw [List.map_filterMap]
  refine (List.nodup_finRange MAX_SERVICE_NUM).filterMap fun i i' stype hi hi' => ?_
  simp only [Option.map_map, Option.mem_def, Option.map_eq_some_iff, Function.comp_apply] at hi hi'
  obtain ⟨_, _, rfl⟩ := hi
  obtain ⟨_, _, heq⟩ := hi'
  exact Fin.ext heq.symm

theorem mem_toldTypes {Session Message : Type} {set : ServiceSet Session Message}
    {i : Fin MAX_SERVICE_NUM} {service : Service Session Message} (h : set i = some service) :
    i.val ∈ toldTypes set := by
  refine List.mem_map.mpr ⟨(service, i.val), List.mem_filterMap.mpr ⟨i, ?_, ?_⟩, rfl⟩
  · exact List.mem_finRange i
  · rw [h]
    rfl

/-- **Closing happens once** in every run in which no handler closes a session
while the services are being told of it. -/
theorem closing_once {Session Message : Type} (set : ServiceSet Session Message)
    {events : List Event} {c : State} {trace : List Action}
    (hflat : Along (step (toldTypes set)) Flat (init, []) events)
    (hrun : run (toldTypes set) events = some (c, trace)) (s : Nat) :
    Once (toldTypes set) c trace s := by
  have hok : ClosingOk (toldTypes set) c trace := by
    refine run_invariant (I := fun c : State × List Action => ClosingOk (toldTypes set) c.1 c.2)
      ?_ (ClosingOk.init _) hflat hrun
    rintro ⟨c, trace⟩ e c' hok hf hrecord
    obtain ⟨c', out, hstep, rfl⟩ := record_eq_some.mp hrecord
    exact ClosingOk.step hok hf hstep
  exact hok.once (nodup_toldTypes set) s

/-- One service, under the number 1. -/
def oneService : ServiceSet Unit Unit :=
  ServiceManager.registered [(1, ⟨true, fun _ _ => true, fun _ _ => true⟩)]

/-- `close` is called again after the shutdown, and the callbacks come. -/
theorem closing_once_twice : ∃ c trace,
    run (toldTypes oneService)
      [.close 0, .tell, .handled, .finish false, .close 0, .shutdownDone 0, .closeDone 0]
        = some (c, trace) ∧
      c.isShotdown 0 = true ∧ Once (toldTypes oneService) c trace 0 := by
  have htypes : toldTypes oneService = [1] := rfl
  have hmap : (run [1]
      [.close 0, .tell, .handled, .finish false, .close 0, .shutdownDone 0, .closeDone 0]).map
        (·.1.isShotdown 0) = some true := by decide
  rw [← htypes] at hmap
  obtain ⟨⟨c, trace⟩, hrun, hshut⟩ := Option.map_eq_some_iff.mp hmap
  refine ⟨c, trace, hrun, hshut, closing_once oneService ?_ hrun 0⟩
  rw [htypes]
  decide

/-- The handler of the service closes the session it is told about. -/
theorem closing_again : ¬ ∀ (set : ServiceSet Unit Unit) (events : List Event) (c : State)
    (trace : List Action), run (toldTypes set) events = some (c, trace) →
      ∀ s, Once (toldTypes set) c trace s := by
  intro hall
  have htypes : toldTypes oneService = [1] := rfl
  have hmap : (run [1] [.close 0, .tell, .close 0, .tell, .handled, .finish false, .handled,
      .finish true]).map (·.2.count (.disconnectService 0 1)) = some 2 := by decide
  rw [← htypes] at hmap
  obtain ⟨⟨c, trace⟩, hrun, hcount⟩ := Option.map_eq_some_iff.mp hmap
  have htold := (hall oneService _ c trace hrun 0).told 1
  change trace.count _ = 2 at hcount
  omega

end LibuvServer.Netbus.Closing
