import LibuvServer.Netbus.SendData

/-!
# Pending writes

What a write libuv has not completed relies on. A write the program still
keeps lies in a live object, or is the package `sendData` is about to free,
which is a block of the pool off its free list (`HostOk`). No event touches
such a write without giving it up, so libuv transmits what the call built as
long as it reads in time. `freePackageData` comes right after `uv_write`: for
a package, in time means inside `uv_write`.
-/

namespace LibuvServer.Netbus

open LibuvServer.Lib LibuvServer.Utils

/-- A package has a header. -/
theorem Peer.package_pos {s : Peer} {body pkg : Bytes} (h : s.package body = .built pkg) :
    0 < pkg.length := by
  unfold Peer.package at h
  split at h
  · cases h
  · split at h
    · split at h
      · split at h
        · rename_i webPkg hweb
          cases h
          have hlen := WebProtocol.length_lt_of_sendPackageData hweb
          rw [WebProtocol.sendPackageData_eq hlen, Option.some.injEq] at hweb
          rw [← hweb]
          simp
        · cases h
      · cases h
    · cases h
      simp

namespace Host

variable {h h' : Host} {free : List Nat} {b buf : Block} {w : PendingWrite}

/-- Where the bytes of a write are. -/
def Home (h : Host) (buf : Block) : Prop :=
  buf.size = 0 ∨ (∃ b ∈ h.heap, b.Contains buf) ∨
    (h.unfreed = some buf ∧ h.wbuf_allocer.arena.Contains buf)

/-- What `sendData` is about to free: a block of the pool that is not on the
free list, a block of `malloc`, or `NULL`. -/
inductive Owed (h : Host) (free : List Nat) : Block → Prop where
  | pool {a n : Nat} : h.wbuf_allocer.IsBlock a → a ∉ free → n ≤ h.wbuf_allocer.elem_size →
      Owed h free ⟨a, n⟩
  | heap {pkg : Block} : pkg ∈ h.heap → 0 < pkg.size → Owed h free pkg
  | null : Owed h free ⟨0, 0⟩

theorem Owed.congr {pkg : Block} (howed : h.Owed free pkg)
    (hcache : h'.wbuf_allocer = h.wbuf_allocer) (hheap : h'.heap = h.heap) :
    h'.Owed free pkg := by
  cases howed with
  | pool hblock hfree hsize =>
    rw [← hcache] at hblock hsize
    exact .pool hblock hfree hsize
  | heap hmem hpos =>
    rw [← hheap] at hmem
    exact .heap hmem hpos
  | null => exact .null

/-- Every write the program keeps is where the call put it. -/
structure Ok (h : Host) (free : List Nat) : Prop where
  pool : PoolOk h.mem h.wbuf_allocer free
  heap : ∀ b ∈ h.heap, b.Apart h.wbuf_allocer.arena
  unfreed : ∀ pkg, h.unfreed = some pkg → h.Owed free pkg
  home : ∀ w ∈ h.pending, w.kept = true → h.Home w.buf
  held : ∀ w ∈ h.pending, w.kept = true → h.mem.read w.buf.addr w.buf.size = w.frame

/-- What is still kept after a range is given up did not touch it. -/
theorem mem_spoil (hw : w ∈ h.spoil b) (hkept : w.kept = true) :
    w ∈ h.pending ∧ w.buf.Apart b := by
  obtain ⟨v, hv, rfl⟩ := List.mem_map.mp hw
  by_cases hapart : v.buf.Apart b
  · rw [if_pos hapart]
    exact ⟨hv, hapart⟩
  · rw [if_neg hapart] at hkept
    cases hkept

/-- A range that is given up is home only to empty writes that are kept. -/
theorem size_zero_of_apart (hc : b.Contains buf) (hapart : buf.Apart b) : buf.size = 0 := by
  unfold Block.Contains at hc
  unfold Block.Apart at hapart
  omega

/-- Bytes stored outside everything in use change no write that is kept; in
the arena too, as long as nothing is about to be freed. -/
theorem Home.read_write {a : Nat} {data : Bytes} (hhome : h.Home buf) (mem : Mem)
    (hheap : ∀ b ∈ h.heap, Block.Apart ⟨a, data.length⟩ b)
    (harena : h.unfreed = none ∨ Block.Apart ⟨a, data.length⟩ h.wbuf_allocer.arena) :
    (mem.write a data).read buf.addr buf.size = mem.read buf.addr buf.size := by
  rcases hhome with hzero | ⟨b, hb, hc⟩ | ⟨hunfreed, hc⟩
  · rw [hzero]
    rfl
  · exact Mem.read_write_apart ((hheap b hb).of_contains hc)
  · rcases harena with hnone | hapart
    · rw [hnone] at hunfreed
      cases hunfreed
    · exact Mem.read_write_apart (hapart.of_contains hc)

/-- More live objects do not move a write. -/
theorem Home.mono (hhome : h.Home buf) (hnone : h.unfreed = none)
    (hheap : ∀ b ∈ h.heap, b ∈ h'.heap) : h'.Home buf := by
  rcases hhome with hzero | ⟨b, hb, hc⟩ | ⟨hunfreed, -⟩
  · exact .inl hzero
  · exact .inr (.inl ⟨b, hheap b hb, hc⟩)
  · rw [hnone] at hunfreed
    cases hunfreed

/-- What is kept when a live object is given up lies in another one. -/
theorem Home.erase (hhome : h.Home buf) (hapart : buf.Apart b)
    (hheap : h'.heap = h.heap.erase b)
    (harena : h.unfreed = none ∨ h.unfreed = some b) : h'.Home buf := by
  rcases hhome with hzero | ⟨c, hc, hin⟩ | ⟨hunfreed, -⟩
  · exact .inl hzero
  · by_cases heq : c = b
    · subst heq
      exact .inl (size_zero_of_apart hin hapart)
    · refine .inr (.inl ⟨c, ?_, hin⟩)
      rw [hheap]
      exact (List.mem_erase_of_ne heq).mpr hc
  · rcases harena with hnone | hsome
    · rw [hnone] at hunfreed
      cases hunfreed
    · rw [hsome, Option.some.injEq] at hunfreed
      subst hunfreed
      exact .inl (size_zero_of_apart ⟨Nat.le_refl _, Nat.le_refl _⟩ hapart)

/-! ## One call -/

/-- Giving libuv what is there. -/
theorem Ok.uvWrite (hok : h.Ok free) (hhome : h.Home buf) :
    (h.uvWrite buf (h.mem.read buf.addr buf.size)).Ok free where
  pool := hok.pool
  heap := hok.heap
  unfreed pkg hpkg := (hok.unfreed pkg hpkg).congr rfl rfl
  home w hw hkept := by
    rcases List.mem_append.mp hw with hold | hnew
    · exact hok.home w hold hkept
    · rw [List.mem_singleton] at hnew
      subst hnew
      exact hhome
  held w hw hkept := by
    rcases List.mem_append.mp hw with hold | hnew
    · exact hok.held w hold hkept
    · rw [List.mem_singleton] at hnew
      subst hnew
      rfl

section Call

variable {pkg : Bytes} {a : Nat}

/-- A package in a block of the pool. -/
theorem Ok.take (hok : h.Ok (a :: free)) (hnone : h.unfreed = none)
    (hfit : pkg.length ≤ h.wbuf_allocer.elem_size) :
    ∃ cache, cacheAllocer h.mem h.wbuf_allocer pkg.length = some (a, cache) ∧
      Ok { h with
        mem := h.mem.write a pkg
        wbuf_allocer := cache
        unfreed := some ⟨a, pkg.length⟩ } free ∧
      cache.arena.Contains ⟨a, pkg.length⟩ := by
  obtain ⟨cache, halloc, hpool, harena, helem, hblock⟩ := hok.pool.alloc hfit
  have hin : h.wbuf_allocer.IsBlock a := hok.pool.blocks a (by simp)
  have hnodup := List.nodup_cons.mp hok.pool.nodup
  have hpart : Block.Contains ⟨a, h.wbuf_allocer.elem_size⟩ ⟨a, pkg.length⟩ :=
    ⟨Nat.le_refl _, Nat.add_le_add_left hfit a⟩
  have hinside : h.wbuf_allocer.arena.Contains ⟨a, pkg.length⟩ :=
    ⟨hin.inside.1, Nat.le_trans hpart.2 hin.inside.2⟩
  have hheap : ∀ b ∈ h.heap, Block.Apart ⟨a, pkg.length⟩ b := fun b hb =>
    ((hok.heap b hb).of_contains hinside).symm
  refine ⟨cache, halloc, ?_, by rw [harena]; exact hinside⟩
  exact
    { pool := by
        refine hpool.write fun c hc => ?_
        have hne : c ≠ a := by
          rintro rfl
          exact hnodup.1 hc
        rw [helem]
        have hc' := hok.pool.blocks c (List.mem_cons_of_mem _ hc)
        exact ((hc'.apart hin hne).of_contains hpart).symm
      heap := fun b hb => by
        simp only [harena]
        exact hok.heap b hb
      unfreed := by
        intro p hp
        cases hp
        exact .pool ((hblock a).mpr hin) hnodup.1 (by simp only [helem]; exact hfit)
      home := fun w hw hkept => (hok.home w hw hkept).mono hnone fun b hb => hb
      held := fun w hw hkept => by
        rw [← hok.held w hw hkept]
        exact (hok.home w hw hkept).read_write h.mem hheap (.inl hnone) }

/-- A package in a new block of `malloc`. -/
theorem Ok.grow (hok : h.Ok free) (hnone : h.unfreed = none) (hpos : 0 < pkg.length)
    (hfresh : h.Fresh ⟨a, pkg.length⟩) :
    Ok { h with
      mem := h.mem.write a pkg
      heap := ⟨a, pkg.length⟩ :: h.heap
      unfreed := some ⟨a, pkg.length⟩ } free where
  pool := hok.pool.write_outside hfresh.2.1
  heap := by
    intro b hb
    rcases List.mem_cons.mp hb with rfl | hb
    · exact hfresh.2.1
    · exact hok.heap b hb
  unfreed p hp := by
    cases hp
    exact .heap (by simp) hpos
  home w hw hkept :=
    (hok.home w hw hkept).mono hnone fun b hb => List.mem_cons_of_mem _ hb
  held w hw hkept := by
    rw [← hok.held w hw hkept]
    exact (hok.home w hw hkept).read_write h.mem hfresh.2.2 (.inl hnone)

end Call

/-- **A call to `sendData`**, up to and including `uv_write`. -/
theorem Ok.sendData {s : Peer} {body : Block} {fresh : Nat} (hok : h.Ok free)
    (hnone : h.unfreed = none) (hbody : ∃ b ∈ h.heap, b.Contains body)
    (hcall : h.sendData s body fresh = some h') : ∃ free', h'.Ok free' := by
  unfold Host.sendData at hcall
  simp only at hcall
  cases hpkg : s.package (h.mem.read body.addr body.size) with
  | body =>
    rw [hpkg] at hcall
    cases hcall
    exact ⟨free, hok.uvWrite (.inr (.inl hbody))⟩
  | refused =>
    rw [hpkg] at hcall
    cases hcall
    have hwrite : (h.uvWrite ⟨0, 0⟩ []).Ok free := hok.uvWrite (.inl rfl)
    refine ⟨free, ?_⟩
    exact
      { hwrite with
        unfreed := fun p hp => by
          cases hp
          exact .null
        home := fun w hw hkept => (hwrite.home w hw hkept).mono hnone fun b hb => hb }
  | built pkg =>
    simp only [hpkg] at hcall
    have hpos := Peer.package_pos hpkg
    -- the pool serves the package, or it is too long, or the pool is empty
    by_cases hpool : pkg.length ≤ h.wbuf_allocer.elem_size ∧ free ≠ []
    · obtain ⟨hfit, hne⟩ := hpool
      obtain ⟨a, rest, rfl⟩ := List.exists_cons_of_ne_nil hne
      obtain ⟨cache, halloc, htake, hin⟩ := hok.take hnone hfit
      rw [halloc] at hcall
      cases hcall
      have hwrite := htake.uvWrite (.inr (.inr ⟨rfl, hin⟩))
      simp only [Mem.read_write] at hwrite
      exact ⟨rest, hwrite⟩
    · have hempty : h.wbuf_allocer.elem_size < pkg.length ∨ free = [] := by
        by_cases hfit : pkg.length ≤ h.wbuf_allocer.elem_size
        · exact .inr (by_contra fun hne => hpool ⟨hfit, hne⟩)
        · exact .inl (Nat.lt_of_not_le hfit)
      have halloc := hok.pool.alloc_none hempty
      rw [halloc] at hcall
      simp only at hcall
      split at hcall
      · rename_i hfresh
        cases hcall
        have hgrow := hok.grow hnone hpos hfresh
        have hwrite := hgrow.uvWrite
          (.inr (.inl ⟨_, List.mem_cons_self, Nat.le_refl _, Nat.le_refl _⟩))
        simp only [Mem.read_write] at hwrite
        exact ⟨free, hwrite⟩
      · cases hcall

/-- **The package of a call is freed**, and given up. -/
theorem Ok.freePackageData {pkg : Block} (hok : h.Ok free) (hunfreed : h.unfreed = some pkg) :
    ∃ free', (h.freePackageData pkg).Ok free' := by
  have houtside : ∀ (hout : pkg.addr < h.wbuf_allocer.cacheMem ∨
      h.wbuf_allocer.cacheMem + h.wbuf_allocer.capacity * h.wbuf_allocer.elem_size ≤ pkg.addr),
      (h.freePackageData pkg).Ok free := by
    intro hout
    unfold Host.freePackageData
    rw [cacheFree_outside hout]
    exact
      { pool := hok.pool
        heap := fun b hb => hok.heap b (List.mem_of_mem_erase hb)
        unfreed := by
          intro p hp
          cases hp
        home := fun w hw hkept => by
          obtain ⟨hold, hapart⟩ := mem_spoil hw hkept
          exact (hok.home w hold hkept).erase hapart rfl (.inr hunfreed)
        held := fun w hw hkept => hok.held w (mem_spoil hw hkept).1 hkept }
  cases hok.unfreed pkg hunfreed with
  | null => exact ⟨free, houtside (.inl hok.pool.base)⟩
  | heap hmem hpos =>
    have hapart := hok.heap pkg hmem
    unfold Block.Apart CacheMan.arena at hapart
    simp only at hapart
    exact ⟨free, houtside (by omega)⟩
  | @pool a n hblock hfree hsize =>
    obtain ⟨cache, hcall, hpool, harena, helem, hsame⟩ := hok.pool.release hblock hfree
    have hnode : 8 ≤ h.wbuf_allocer.elem_size := hok.pool.node
    refine ⟨a :: free, ?_⟩
    unfold Host.freePackageData
    simp only [hcall]
    -- the link written into the block reaches nothing that is kept
    have hlink : ∀ w : PendingWrite, w.buf.Apart ⟨a, h.wbuf_allocer.elem_size⟩ →
        (h.mem.writePtr a h.wbuf_allocer.listCache).read w.buf.addr w.buf.size
          = h.mem.read w.buf.addr w.buf.size := by
      intro w hapart
      refine Mem.read_write_apart ?_
      rw [Mem.length_wordBytes]
      exact (hapart.of_contains (d := ⟨a, 8⟩) ⟨Nat.le_refl a, Nat.add_le_add_left hnode a⟩).symm
    exact
      { pool := hpool
        heap := fun b hb => by
          rw [harena]
          exact hok.heap b hb
        unfreed := by
          intro p hp
          cases hp
        home := fun w hw hkept => by
          obtain ⟨hold, hapart⟩ := mem_spoil hw hkept
          rcases hok.home w hold hkept with hzero | hheap | ⟨hpkg, -⟩
          · exact .inl hzero
          · exact .inr (.inl hheap)
          · rw [hunfreed, Option.some.injEq] at hpkg
            refine .inl (size_zero_of_apart (b := ⟨a, h.wbuf_allocer.elem_size⟩) ?_ hapart)
            rw [← hpkg]
            exact ⟨Nat.le_refl _, Nat.add_le_add_left hsize a⟩
        held := fun w hw hkept => by
          obtain ⟨hold, hapart⟩ := mem_spoil hw hkept
          simp only [hlink w hapart]
          exact hok.held w hold hkept }

/-! ## One event -/

/-- `malloc` gives a block that nothing else uses. -/
theorem Ok.malloc (hok : h.Ok free) (hnone : h.unfreed = none) {block : Block}
    (hfresh : h.Fresh block) : Host.Ok { h with heap := block :: h.heap } free where
  pool := hok.pool
  heap c hc := by
    rcases List.mem_cons.mp hc with rfl | hc
    · exact hfresh.2.1
    · exact hok.heap c hc
  unfreed p hp := by
    rw [hnone] at hp
    cases hp
  home w hw hkept := (hok.home w hw hkept).mono hnone fun c hc => List.mem_cons_of_mem _ hc
  held := hok.held

/-- A store into a live object gives up what lay there. -/
theorem Ok.store (hok : h.Ok free) (hnone : h.unfreed = none) {block : Block} {off : Nat}
    {data : Bytes} (hblock : block ∈ h.heap) (hfit : off + data.length ≤ block.size) :
    Host.Ok { h with
      mem := h.mem.write (block.addr + off) data
      pending := h.spoil ⟨block.addr + off, data.length⟩ } free where
  pool := by
    have hpart : block.Contains ⟨block.addr + off, data.length⟩ := by
      refine ⟨Nat.le_add_right _ _, ?_⟩
      simp only
      omega
    exact hok.pool.write_outside ((hok.heap block hblock).symm.of_contains hpart).symm
  heap := hok.heap
  unfreed p hp := by
    rw [hnone] at hp
    cases hp
  home w hw hkept := (hok.home w (mem_spoil hw hkept).1 hkept).mono hnone fun c hc => hc
  held w hw hkept := by
    obtain ⟨hold, hapart⟩ := mem_spoil hw hkept
    rw [← hok.held w hold hkept]
    exact Mem.read_write_apart hapart.symm

/-- `free` gives up what lay in the block. -/
theorem Ok.giveUp (hok : h.Ok free) (hnone : h.unfreed = none) (block : Block) :
    Host.Ok { h with heap := h.heap.erase block, pending := h.spoil block } free where
  pool := hok.pool
  heap c hc := hok.heap c (List.mem_of_mem_erase hc)
  unfreed p hp := by
    rw [hnone] at hp
    cases hp
  home w hw hkept := by
    obtain ⟨hold, hapart⟩ := mem_spoil hw hkept
    exact (hok.home w hold hkept).erase hapart rfl (.inl hnone)
  held w hw hkept := hok.held w (mem_spoil hw hkept).1 hkept

/-- What the rest of the process writes elsewhere touches nothing. -/
theorem Ok.other (hok : h.Ok free) {addr : Nat} {data : Bytes}
    (hfresh : h.Fresh ⟨addr, data.length⟩) :
    Host.Ok { h with mem := h.mem.write addr data } free where
  pool := hok.pool.write_outside hfresh.2.1
  heap := hok.heap
  unfreed p hp := (hok.unfreed p hp).congr rfl rfl
  home := hok.home
  held w hw hkept := by
    rw [← hok.held w hw hkept]
    exact (hok.home w hw hkept).read_write h.mem hfresh.2.2 (.inr hfresh.2.1)

/-- A write that libuv has completed. -/
theorem Ok.complete (hok : h.Ok free) (i : Nat) :
    Host.Ok { h with pending := h.pending.eraseIdx i } free where
  pool := hok.pool
  heap := hok.heap
  unfreed p hp := (hok.unfreed p hp).congr rfl rfl
  home w hw hkept := hok.home w (List.mem_of_mem_eraseIdx hw) hkept
  held w hw hkept := hok.held w (List.mem_of_mem_eraseIdx hw) hkept

/-- **Every event keeps the writes that are not given up.** -/
theorem Ok.step {e : Event} {sent : List Sent} (hok : h.Ok free)
    (hstep : h.step e = some (h', sent)) : ∃ free', h'.Ok free' := by
  cases e with
  | malloc block =>
    simp only [Host.step] at hstep
    split at hstep
    · rename_i hcond
      cases hstep
      exact ⟨free, hok.malloc hcond.1 hcond.2⟩
    · cases hstep
  | store block off data =>
    simp only [Host.step] at hstep
    split at hstep
    · rename_i hcond
      cases hstep
      exact ⟨free, hok.store hcond.1 hcond.2.1 hcond.2.2⟩
    · cases hstep
  | free block =>
    simp only [Host.step] at hstep
    split at hstep
    · rename_i hcond
      cases hstep
      exact ⟨free, hok.giveUp hcond.1 block⟩
    · cases hstep
  | other addr data =>
    simp only [Host.step] at hstep
    split at hstep
    · rename_i hfresh
      cases hstep
      exact ⟨free, hok.other hfresh⟩
    · cases hstep
  | sendData s body fresh =>
    simp only [Host.step] at hstep
    split at hstep
    · rename_i hcond
      obtain ⟨h₁, hcall, heq⟩ := Option.map_eq_some_iff.mp hstep
      cases heq
      exact hok.sendData hcond.1 hcond.2 hcall
    · cases hstep
  | freePackageData =>
    simp only [Host.step] at hstep
    obtain ⟨pkg, hunfreed, heq⟩ := Option.map_eq_some_iff.mp hstep
    cases heq
    exact hok.freePackageData hunfreed
  | transmit i off n =>
    simp only [Host.step] at hstep
    split at hstep
    · cases hstep
    · split at hstep
      · cases hstep
        exact ⟨free, hok⟩
      · cases hstep
  | complete i =>
    simp only [Host.step] at hstep
    cases hstep
    exact ⟨free, hok.complete i⟩

/-- What is transmitted in time is part of the frame. -/
theorem Ok.sent {e : Event} {sent : List Sent} (hok : h.Ok free) (htime : h.InTime e)
    (hstep : h.step e = some (h', sent)) : ∀ o ∈ sent, o.bytes = o.frame := by
  cases e with
  | transmit i off n =>
    simp only [Host.step] at hstep
    split at hstep
    · cases hstep
    · rename_i w hw
      split at hstep
      · rename_i hin
        cases hstep
        intro o ho
        rw [List.mem_singleton] at ho
        subst ho
        rw [← hok.held w (List.mem_of_getElem? hw) (htime w hw)]
        exact Mem.read_part hin
      · cases hstep
  | malloc _ | store _ _ _ | free _ | other _ _ =>
    simp only [Host.step] at hstep
    split at hstep
    · cases hstep
      simp
    · cases hstep
  | sendData _ _ _ =>
    simp only [Host.step] at hstep
    split at hstep
    · obtain ⟨h₁, -, heq⟩ := Option.map_eq_some_iff.mp hstep
      cases heq
      simp
    · cases hstep
  | freePackageData =>
    obtain ⟨pkg, -, heq⟩ := Option.map_eq_some_iff.mp hstep
    cases heq
    simp
  | complete _ =>
    cases hstep
    simp

/-! ## Whole runs -/

/-- **A run that reads in time transmits what was built.** -/
theorem Ok.run {events : List Event} {sent : List Sent} (hok : h.Ok free)
    (htime : h.Timely events) (hrun : h.run events = some (h', sent)) :
    ∀ o ∈ sent, o.bytes = o.frame := by
  have halong : Along Host.step (fun c e => c.1.InTime e) (h, []) events := htime
  have hkeep := run_invariant
    (I := fun c : Host × List Sent => (∃ free, c.1.Ok free) ∧ ∀ o ∈ c.2, o.bytes = o.frame)
    ?_ ⟨⟨free, hok⟩, by simp⟩ halong hrun
  · exact hkeep.2
  · rintro c e c' ⟨⟨free, hok⟩, hsent⟩ hin hstep
    obtain ⟨h₁, out, hone, rfl⟩ := record_eq_some.mp hstep
    refine ⟨hok.step hone, fun o ho => ?_⟩
    rcases List.mem_append.mp ho with hold | hnew
    · exact hsent o hold
    · exact hok.sent hin hone o hnew

/-- The process starts with a new pool and nothing sent. -/
theorem ok_boot {base : Nat} (hbase : 0 < base)
    (htop : base + CACHE_SEND_SIZE * CACHE_CMD_SIZE ≤ 2 ^ 64) :
    (boot base).Ok (blocksDown base CACHE_CMD_SIZE CACHE_SEND_SIZE) where
  pool := cacheCreator_ok (by decide) hbase htop
  heap := by simp [boot]
  unfreed := by simp [boot]
  home := by simp [boot]
  held := by simp [boot]

end Host

/-- **Pending writes.** In every run in which libuv reads a write while its
bytes are still kept for it, it transmits exactly the frame of the call. -/
theorem pending_writes {base : Nat} (hbase : 0 < base)
    (htop : base + CACHE_SEND_SIZE * CACHE_CMD_SIZE ≤ 2 ^ 64) (events : List Event)
    (htime : (Host.boot base).Timely events) {h : Host} {sent : List Sent}
    (hrun : (Host.boot base).run events = some (h, sent)) :
    ∀ o ∈ sent, o.bytes = o.frame :=
  (Host.ok_boot hbase htop).run htime hrun

/-- One byte to a TCP session: `malloc`, `store` and `sendData`. -/
def oneByte : List Event :=
  [.malloc ⟨16, 1⟩, .store ⟨16, 1⟩ 0 [7], .sendData ⟨false, .TCP_SOCKET, false⟩ ⟨16, 1⟩ 0]

/-- Libuv reads the package inside `uv_write`. -/
theorem pending_writes_inside :
    ∃ h sent, (Host.boot 65536).run (oneByte ++ [.transmit 0 0 3, .freePackageData])
        = some (h, sent) ∧
      sent = [⟨[3, 0, 7], [3, 0, 7]⟩] ∧ ∀ o ∈ sent, o.bytes = o.frame := by
  have hsent : ((Host.boot 65536).run (oneByte ++ [.transmit 0 0 3, .freePackageData])).map
      (·.2) = some [⟨[3, 0, 7], [3, 0, 7]⟩] := by decide +kernel
  obtain ⟨⟨h, sent⟩, hrun, heq⟩ := Option.map_eq_some_iff.mp hsent
  have htime : (Host.boot 65536).Timely (oneByte ++ [.transmit 0 0 3, .freePackageData]) := by
    decide +kernel
  exact ⟨h, sent, hrun, heq, pending_writes (by decide) (by decide) _ htime hrun⟩

/-- Libuv reads it after `sendData` has returned: it transmits the link of
the pool's free list. -/
theorem pending_writes_freed :
    ¬ ∀ (base : Nat) (events : List Event) (h : Host) (sent : List Sent), 0 < base →
      base + CACHE_SEND_SIZE * CACHE_CMD_SIZE ≤ 2 ^ 64 →
      (Host.boot base).run events = some (h, sent) → ∀ o ∈ sent, o.bytes = o.frame := by
  intro hall
  have hsent : ((Host.boot 65536).run (oneByte ++ [.freePackageData, .transmit 0 0 3])).map
      (·.2) = some [⟨[3, 0, 7], [0x00, 0xf8, 0x10]⟩] := by decide +kernel
  obtain ⟨⟨h, sent⟩, hrun, rfl⟩ := Option.map_eq_some_iff.mp hsent
  have heq := hall 65536 _ h _ (by decide) (by decide) hrun
  revert heq
  decide

end LibuvServer.Netbus
