import OpenELB.GoMap

/-! # The life of the speaker process

`Manager.Start`, `RegisterSpeaker` and `UnRegisterSpeaker` in `pkg/speaker/manager.go`.  Every
speaker that is registered runs in a goroutine of its own, and so does the manager of the
controllers.  Each has a context that tells it to stop, and one that fails sends its error over
a channel without a buffer.  `Start` waits in a loop for the context of the process or for one
of these errors; once it has left the loop it waits for all goroutines and returns.

An error of the controllers is received and forgotten: only a signal or the error of a speaker
ends the loop (`start_leaves_loop`), and then every goroutine has been told to stop.  But nobody
receives errors any more: if a goroutine then still has one to send it never ends, and neither
does `Start` (`start_returns_iff`). -/
namespace OpenELB.SpeakerProcess
open Go

/-! ## The process -/

/-- Where a goroutine is. -/
inductive Phase where
  /-- In the call of `Start`. -/
  | running
  /-- `Start` has returned an error, which is being sent. -/
  | sending (err : String)
  /-- It has ended, with what `Start` returned. -/
  | ended (err : Option String)
  deriving DecidableEq

/-- What follows when `Start` returns. -/
def Phase.afterStart : Option String → Phase
  | none => .ended none
  | some err => .sending err

/-- The goroutine of a speaker, and whether its own context is cancelled. -/
structure Goroutine where
  cancelled : Bool := false
  phase : Phase := .running
  deriving DecidableEq

/-- A goroutine goes on.  When `Start` has failed it cancels its own context before it sends the
error. -/
def Goroutine.goOn (g : Goroutine) : Phase → Goroutine
  | .sending err => { cancelled := true, phase := .sending err }
  | phase => { g with phase := phase }

/-- Where `Manager.Start` is. -/
inductive Main where
  | selecting
  /-- In `waitGroup.Wait`, and what is returned then. -/
  | waiting (err : Option String)
  | returned (err : Option String)
  deriving DecidableEq

/-- The process.  `speakers` is the map of the manager: the goroutine of each name. -/
structure Process where
  /-- The context of the process is done. -/
  ctxDone : Bool := false
  /-- The context of the controllers is done. -/
  ictxDone : Bool := false
  mgr : Phase := .running
  goroutines : List Goroutine := []
  speakers : Map String Nat := Map.empty
  main : Main := .selecting

/-- Cancel the context of a goroutine. -/
def Process.cancel (s : Process) (i : Nat) : Process :=
  { s with goroutines := s.goroutines.modify i fun g => { g with cancelled := true } }

/-- Cancel the context of the speaker of a name, if there is one. -/
def Process.cancelSpeaker (s : Process) (name : String) : Process :=
  match s.speakers.get name with
  | some i => s.cancel i
  | none => s

/-- `RegisterSpeaker`. -/
def Process.registerSpeaker (s : Process) (name : String) : Process :=
  let s := s.cancelSpeaker name
  { s with
    goroutines := s.goroutines ++ [({} : Goroutine)]
    speakers := s.speakers.set name s.goroutines.length }

/-- `UnRegisterSpeaker`. -/
def Process.unRegisterSpeaker (s : Process) (name : String) : Process :=
  let s := s.cancelSpeaker name
  { s with speakers := s.speakers.delete name }

/-- A goroutine goes on. -/
def Process.setPhase (s : Process) (i : Nat) (phase : Phase) : Process :=
  { s with goroutines := s.goroutines.modify i fun g => g.goOn phase }

/-- The loop over the speakers that cancels them, in some order. -/
def Process.cancelAll (s : Process) (names : List String) : Process :=
  names.foldl Process.cancelSpeaker s

/-- The error of a speaker has been received, and `cancelFunc` been called. -/
def Process.received (s : Process) (i : Nat) (err : String) : Process :=
  { s.setPhase i (.ended (some err)) with ictxDone := true, main := .waiting (some err) }

/-- One step of the process. -/
inductive Step : Process → Process → Prop
  /-- A signal. -/
  | signal (s : Process) : Step s { s with ctxDone := true }
  /-- `mgr.Start` returns. -/
  | mgrReturns (s : Process) (r : Option String) : s.mgr = .running →
      Step s { s with mgr := .afterStart r }
  /-- The `Start` of a speaker returns. -/
  | speakerReturns (s : Process) (i : Nat) (g : Goroutine) (r : Option String) :
      s.goroutines[i]? = some g → g.phase = .running → Step s (s.setPhase i (.afterStart r))
  /-- `case <-ctx.Done()`. -/
  | onDone (s : Process) : s.main = .selecting → s.ctxDone = true →
      Step s { s with ictxDone := true, main := .waiting none }
  /-- `case err = <-errCh`: the loop goes on. -/
  | onMgrError (s : Process) (err : String) : s.main = .selecting → s.mgr = .sending err →
      Step s { s with mgr := .ended (some err) }
  /-- `case err = <-m.errChan`. -/
  | onSpeakerError (s : Process) (i : Nat) (g : Goroutine) (err : String) (names : List String) :
      s.main = .selecting → s.goroutines[i]? = some g → g.phase = .sending err →
      s.speakers.Ranges names →
      Step s ((s.received i err).cancelAll names)
  /-- `waitGroup.Wait` returns. -/
  | onWait (s : Process) (err : Option String) : s.main = .waiting err →
      (∃ r, s.mgr = .ended r) → (∀ g ∈ s.goroutines, ∃ r, g.phase = .ended r) →
      Step s { s with main := .returned err }

/-- Steps in turn. -/
inductive Steps : Process → Process → Prop
  | refl (s : Process) : Steps s s
  | tail {s t u : Process} : Steps s t → Step t u → Steps s u

/-- Speakers are registered and unregistered, before `Start`. -/
inductive Setup : Process → Prop
  | init : Setup {}
  | register {s : Process} (name : String) : Setup s → Setup (s.registerSpeaker name)
  | unRegister {s : Process} (name : String) : Setup s → Setup (s.unRegisterSpeaker name)

/-- What the process can come to. -/
def Reach (s : Process) : Prop := ∃ s₀, Setup s₀ ∧ Steps s₀ s

/-! ## Goroutines -/

section Goroutines
variable {s t : Process} {i j : Nat} {g : Goroutine} {name : String}

theorem Goroutine.goOn_cancelled (g : Goroutine) (phase : Phase) (h : g.cancelled = true) :
    (g.goOn phase).cancelled = true := by
  cases phase <;> first | exact h | rfl

theorem getElem_setPhase (s : Process) (i j : Nat) (phase : Phase) :
    (s.setPhase i phase).goroutines[j]? =
      s.goroutines[j]?.map fun g => if i = j then g.goOn phase else g := by
  rw [Process.setPhase, List.getElem?_modify]
  by_cases hij : i = j <;> simp [hij]

theorem getElem_cancelSpeaker (s : Process) (name : String) (j : Nat) :
    (s.cancelSpeaker name).goroutines[j]? = s.goroutines[j]?.map fun g =>
      if s.speakers.get name = some j then { g with cancelled := true } else g := by
  rw [Process.cancelSpeaker]
  rcases hget : s.speakers.get name with - | i
  · simp
  · show (s.cancel i).goroutines[j]? = _
    rw [Process.cancel, List.getElem?_modify]
    by_cases hij : i = j <;> simp [hij]

/-- A speaker is cancelled and nothing else is changed. -/
theorem cancelSpeaker_fields (s : Process) (name : String) :
    (s.cancelSpeaker name).ctxDone = s.ctxDone ∧ (s.cancelSpeaker name).ictxDone = s.ictxDone ∧
      (s.cancelSpeaker name).mgr = s.mgr ∧ (s.cancelSpeaker name).speakers = s.speakers ∧
      (s.cancelSpeaker name).main = s.main := by
  rw [Process.cancelSpeaker]
  split <;> exact ⟨rfl, rfl, rfl, rfl, rfl⟩

/-- **The loop over the speakers** cancels their goroutines, and does nothing else. -/
theorem cancelAll_fields (names : List String) (s : Process) :
    (s.cancelAll names).ctxDone = s.ctxDone ∧ (s.cancelAll names).ictxDone = s.ictxDone ∧
      (s.cancelAll names).mgr = s.mgr ∧ (s.cancelAll names).speakers = s.speakers ∧
      (s.cancelAll names).main = s.main := by
  induction names generalizing s with
  | nil => exact ⟨rfl, rfl, rfl, rfl, rfl⟩
  | cons name names ih =>
    obtain ⟨h₁, h₂, h₃, h₄, h₅⟩ := cancelSpeaker_fields s name
    obtain ⟨h₁', h₂', h₃', h₄', h₅'⟩ := ih (s.cancelSpeaker name)
    exact ⟨h₁'.trans h₁, h₂'.trans h₂, h₃'.trans h₃, h₄'.trans h₄, h₅'.trans h₅⟩

theorem getElem_cancelAll (names : List String) (s : Process) (j : Nat) :
    (s.cancelAll names).goroutines[j]? = s.goroutines[j]?.map fun g =>
      if ∃ name ∈ names, s.speakers.get name = some j then { g with cancelled := true } else g := by
  induction names generalizing s with
  | nil => simp [Process.cancelAll]
  | cons name names ih =>
    have hspeakers := (cancelSpeaker_fields s name).2.2.2.1
    rw [show s.cancelAll (name :: names) = (s.cancelSpeaker name).cancelAll names from rfl, ih,
      getElem_cancelSpeaker, Option.map_map, hspeakers]
    congr 1
    funext g
    simp only [Function.comp, List.exists_mem_cons_iff]
    by_cases hname : s.speakers.get name = some j
    · by_cases hmem : ∃ name ∈ names, s.speakers.get name = some j <;> simp [hname, hmem]
    · simp [hname]

/-- Every goroutine that is not in the map has been cancelled. -/
def Registered (s : Process) : Prop :=
  ∀ j g, s.goroutines[j]? = some g → g.cancelled = true ∨ ∃ name, s.speakers.get name = some j

theorem Registered.cancelSpeaker (h : Registered s) (hg : (s.cancelSpeaker name).goroutines[j]? = some g) :
    g.cancelled = true ∨ ∃ name', name' ≠ name ∧ s.speakers.get name' = some j := by
  rw [getElem_cancelSpeaker] at hg
  obtain ⟨g₀, hg₀, rfl⟩ := Option.map_eq_some_iff.mp hg
  by_cases hname : s.speakers.get name = some j
  · exact .inl (by rw [if_pos hname])
  · rw [if_neg hname]
    refine (h j g₀ hg₀).imp_right ?_
    rintro ⟨name', hname'⟩
    refine ⟨name', ?_, hname'⟩
    rintro rfl
    exact hname hname'

theorem registered_of_setup (h : Setup s) : Registered s := by
  induction h with
  | init => exact fun j g hg => by cases hg
  | @register s name _ ih =>
    intro j g hg
    have hspeakers := (cancelSpeaker_fields s name).2.2.2.1
    show _ ∨ ∃ name', ((s.cancelSpeaker name).speakers.set name _).get name' = some j
    replace hg : ((s.cancelSpeaker name).goroutines ++ [({} : Goroutine)])[j]? = some g := hg
    by_cases hj : j < (s.cancelSpeaker name).goroutines.length
    · rw [List.getElem?_append_left hj] at hg
      refine (ih.cancelSpeaker hg).imp_right ?_
      rintro ⟨name', hne, hget⟩
      refine ⟨name', ?_⟩
      rw [Map.get_set_ne _ _ hne, hspeakers, hget]
    · -- the new one
      have hlen := (List.getElem?_eq_some_iff.mp hg).1
      rw [List.length_append, List.length_singleton] at hlen
      refine .inr ⟨name, ?_⟩
      rw [Map.get_set_self, show j = (s.cancelSpeaker name).goroutines.length by omega]
  | @unRegister s name _ ih =>
    intro j g hg
    have hspeakers := (cancelSpeaker_fields s name).2.2.2.1
    refine (ih.cancelSpeaker hg).imp_right ?_
    rintro ⟨name', hne, hget⟩
    refine ⟨name', ?_⟩
    show ((s.cancelSpeaker name).speakers.delete name).get name' = some j
    rw [Map.get_delete, if_neg hne, hspeakers, hget]

end Goroutines

/-! ## Why the loop is left -/

/-- What `Start` returns, once it has left the loop. -/
def Main.result : Main → Option (Option String)
  | .selecting => none
  | .waiting err | .returned err => some err

/-- What the loop was left for: a signal, or the error of a speaker. -/
def Cause (s : Process) : Option String → Prop
  | none => s.ctxDone = true
  | some err => ∃ (j : Nat) (g : Goroutine),
    s.goroutines[j]? = some g ∧ g.phase = .ended (some err)

/-- What holds at all times. -/
structure Sound (s : Process) : Prop where
  registered : Registered s
  cause : ∀ err, s.main.result = some err → Cause s err
  told : s.main ≠ .selecting → s.ictxDone = true ∧
    ∀ (j : Nat) (g : Goroutine), s.goroutines[j]? = some g → g.cancelled = true ∨ s.ctxDone = true

section Loop
variable {s t : Process} {i j : Nat} {g : Goroutine} {r : Option String}

theorem Cause.setPhase {err : Option String} {phase : Phase} (h : Cause s err)
    (hg : s.goroutines[i]? = some g) (hne : ∀ e, g.phase ≠ .ended e) :
    Cause (s.setPhase i phase) err := by
  rcases err with - | err
  · exact h
  · obtain ⟨j, g', hg', hend⟩ := h
    refine ⟨j, g', ?_, hend⟩
    have hij : i ≠ j := by
      rintro rfl
      cases hg.symm.trans hg'
      exact hne _ hend
    rw [getElem_setPhase, hg', Option.map_some, if_neg hij]

theorem Registered.setPhase {phase : Phase} (h : Registered s) : Registered (s.setPhase i phase) := by
  intro j g hg
  rw [getElem_setPhase] at hg
  obtain ⟨g₀, hg₀, rfl⟩ := Option.map_eq_some_iff.mp hg
  refine (h j g₀ hg₀).imp_left fun hc => ?_
  split
  · exact g₀.goOn_cancelled phase hc
  · exact hc

theorem Sound.setPhase {phase : Phase} (h : Sound s) (hg : s.goroutines[i]? = some g)
    (hne : ∀ e, g.phase ≠ .ended e) : Sound (s.setPhase i phase) := by
  refine ⟨h.registered.setPhase, fun err herr => (h.cause err herr).setPhase hg hne, fun hm => ?_⟩
  obtain ⟨hictx, htold⟩ := h.told hm
  refine ⟨hictx, fun j g' hg' => ?_⟩
  rw [getElem_setPhase] at hg'
  obtain ⟨g₀, hg₀, rfl⟩ := Option.map_eq_some_iff.mp hg'
  refine (htold j g₀ hg₀).imp_left fun hc => ?_
  split
  · exact g₀.goOn_cancelled phase hc
  · exact hc

/-- **One step** keeps all this. -/
theorem Sound.step (h : Sound s) (hs : Step s t) : Sound t := by
  cases hs with
  | signal =>
    refine ⟨h.registered, fun err herr => ?_, fun hm => ⟨(h.told hm).1, fun _ _ _ => .inr rfl⟩⟩
    cases err with
    | none => rfl
    | some err => exact h.cause _ herr
  | mgrReturns r hr => exact ⟨h.registered, h.cause, h.told⟩
  | speakerReturns i g r hg hr =>
    exact h.setPhase hg fun e he => by rw [hr] at he; cases he
  | onDone hm hctx =>
    refine ⟨h.registered, fun err herr => ?_, fun _ => ⟨rfl, fun _ _ _ => .inr hctx⟩⟩
    cases herr
    exact hctx
  | onMgrError err hm hr => exact ⟨h.registered, h.cause, h.told⟩
  | onSpeakerError i g err names hm hg hr hnames =>
    have hreg : Registered (s.received i err) := h.registered.setPhase
    obtain ⟨-, hictx, -, -, hmain⟩ := cancelAll_fields names (s.received i err)
    have hget := getElem_cancelAll names (s.received i err)
    -- whoever is in the map is cancelled now
    have hall : ∀ (j : Nat) (g' : Goroutine),
        ((s.received i err).cancelAll names).goroutines[j]? = some g' → g'.cancelled = true := by
      intro j g' hg'
      rw [hget] at hg'
      obtain ⟨g₀, hg₀, rfl⟩ := Option.map_eq_some_iff.mp hg'
      rcases hreg j g₀ hg₀ with hc | ⟨name, hname⟩
      · split
        · rfl
        · exact hc
      · rw [if_pos ⟨name, hnames.mem hname, hname⟩]
    refine ⟨fun j g' hg' => .inl (hall j g' hg'), fun e he => ?_, fun _ =>
      ⟨hictx, fun j g' hg' => .inl (hall j g' hg')⟩⟩
    rw [hmain] at he
    cases he
    have hi : (s.received i err).goroutines[i]? = some { g with phase := .ended (some err) } := by
      rw [show (s.received i err).goroutines = (s.setPhase i (.ended (some err))).goroutines from rfl,
        getElem_setPhase, hg, Option.map_some, if_pos rfl]
      rfl
    rw [Cause]
    simp only [hget]
    refine ⟨i, _, by rw [hi, Option.map_some], ?_⟩
    split <;> rfl
  | onWait err hm hmgr hall =>
    refine ⟨h.registered, fun e he => h.cause e ?_, fun _ => h.told (by rw [hm]; simp)⟩
    rw [hm]
    exact he

theorem sound_of_reach (h : Reach s) : Sound s := by
  obtain ⟨s₀, hsetup, hsteps⟩ := h
  induction hsteps with
  | refl =>
    have hstart : s₀.main = .selecting := by
      induction hsetup with
      | init => rfl
      | @register s name _ ih => exact (cancelSpeaker_fields s name).2.2.2.2.trans ih
      | @unRegister s name _ ih => exact (cancelSpeaker_fields s name).2.2.2.2.trans ih
    refine ⟨registered_of_setup hsetup, fun err herr => ?_, fun hm => absurd hstart hm⟩
    rw [hstart] at herr
    cases herr
  | tail _ hs ih => exact (ih).step hs

/-- **Why `Start` leaves its loop.**  Whatever speakers are registered, and however the process
runs: once `Start` is out of the loop there was a signal, and then it returns nil, or it
returns the error that a speaker has ended with; and every goroutine has been told to stop.  So no
error of the controllers ever ends the loop. -/
theorem start_leaves_loop (h : Reach s) (hm : s.main ≠ .selecting) :
    (s.main.result = some none ∧ s.ctxDone = true ∨
      ∃ (err : String) (j : Nat) (g : Goroutine), s.main.result = some (some err) ∧
        s.goroutines[j]? = some g ∧ g.phase = .ended (some err)) ∧
    s.ictxDone = true ∧ ∀ g ∈ s.goroutines, g.cancelled = true ∨ s.ctxDone = true := by
  have hsound := sound_of_reach h
  obtain ⟨hictx, htold⟩ := hsound.told hm
  refine ⟨?_, hictx, fun g hg => ?_⟩
  · rcases hr : s.main.result with - | (- | err)
    · rcases hmain : s.main with - | err | err
      · exact absurd hmain hm
      · rw [hmain] at hr
        cases hr
      · rw [hmain] at hr
        cases hr
    · exact .inl ⟨rfl, hsound.cause none hr⟩
    · obtain ⟨j, g, hg, hend⟩ := hsound.cause (some err) hr
      exact .inr ⟨err, j, g, rfl, hg, hend⟩
  · obtain ⟨j, hj⟩ := List.mem_iff_getElem?.mp hg
    exact htold j g hj

/-- The process with the speakers for BGP and for virtual addresses. -/
def twoSpeakers : Process := (({} : Process).registerSpeaker "bgp").registerSpeaker "vip"

/-- The controllers fail, and then a signal comes. -/
theorem signalled_twoSpeakers : ∃ s, Reach s ∧ s.ctxDone = true ∧ s.main = .waiting none ∧
    s.mgr = .ended (some "port in use") ∧ s.goroutines[1]? = some ⟨false, .running⟩ := by
  have h₀ := Steps.refl twoSpeakers
  have h₁ := h₀.tail (.mgrReturns _ (some "port in use") rfl)
  have h₂ := h₁.tail (.onMgrError _ "port in use" rfl rfl)
  have h₃ := h₂.tail (.signal _)
  have h₄ := h₃.tail (.onDone _ rfl rfl)
  have hrun : twoSpeakers.goroutines[1]? = some ⟨false, .running⟩ := by decide
  exact ⟨_, ⟨twoSpeakers, .register "vip" (.register "bgp" .init), h₄⟩, rfl, rfl, rfl, hrun⟩

/-- The error of the controllers is not what `Start` returns after the signal. -/
theorem start_leaves_loop_signalled : ∃ s, Reach s ∧ s.mgr = .ended (some "port in use") ∧
    s.main.result = some none ∧ ∀ g ∈ s.goroutines, g.cancelled = true ∨ s.ctxDone = true := by
  obtain ⟨s, hs, -, hm, hmgr, -⟩ := signalled_twoSpeakers
  have hleft := start_leaves_loop hs (by rw [hm]; simp)
  exact ⟨s, hs, hmgr, by rw [hm]; rfl, hleft.2.2⟩

end Loop

/-! ## Whether `Start` returns -/

/-- A goroutine has an error to send. -/
def Pending (s : Process) : Prop :=
  (∃ err, s.mgr = .sending err) ∨ ∃ (j : Nat) (g : Goroutine) (err : String),
    s.goroutines[j]? = some g ∧ g.phase = .sending err

section Wait
variable {s t : Process} {i j : Nat} {g : Goroutine} {err : Option String}

/-- **One step outside the loop.**  Nobody receives an error. -/
theorem Step.outside (hs : Step s t) (hm : s.main ≠ .selecting) :
    t = { s with ctxDone := true } ∨
    (∃ r, s.mgr = .running ∧ t = { s with mgr := .afterStart r }) ∨
    (∃ i g r, s.goroutines[i]? = some g ∧ g.phase = .running ∧ t = s.setPhase i (.afterStart r)) ∨
    ∃ err, s.main = .waiting err ∧ (∃ r, s.mgr = .ended r) ∧
      (∀ g ∈ s.goroutines, ∃ r, g.phase = .ended r) ∧ t = { s with main := .returned err } := by
  cases hs with
  | signal => exact .inl rfl
  | mgrReturns r hr => exact .inr (.inl ⟨r, hr, rfl⟩)
  | speakerReturns i g r hg hr => exact .inr (.inr (.inl ⟨i, g, r, hg, hr, rfl⟩))
  | onWait err h hmgr hall => exact .inr (.inr (.inr ⟨err, h, hmgr, hall, rfl⟩))
  | onDone h _ => exact absurd h hm
  | onMgrError _ h _ => exact absurd h hm
  | onSpeakerError _ _ _ _ h _ _ _ => exact absurd h hm

/-- An error that is not received in the loop is never received. -/
theorem Pending.step (hs : Step s t) (hm : s.main = .waiting err) (h : Pending s) :
    t.main = .waiting err ∧ Pending t := by
  rcases hs.outside (by rw [hm]; simp) with rfl | ⟨r, hr, rfl⟩ | ⟨i, g, r, hg, hr, rfl⟩ |
      ⟨err', -, hmgr, hall, rfl⟩
  · exact ⟨hm, h⟩
  · refine ⟨hm, .inr (h.resolve_left ?_)⟩
    rintro ⟨e, he⟩
    rw [hr] at he
    cases he
  · refine ⟨hm, h.imp_right ?_⟩
    rintro ⟨j, g', e, hg', he⟩
    refine ⟨j, g', e, ?_, he⟩
    have hij : i ≠ j := by
      rintro rfl
      cases hg.symm.trans hg'
      rw [hr] at he
      cases he
    rw [getElem_setPhase, hg', Option.map_some, if_neg hij]
  · -- all have ended, and none has an error to send
    rcases h with ⟨e, he⟩ | ⟨j, g, e, hg, he⟩
    · obtain ⟨r, hr⟩ := hmgr
      cases he.symm.trans hr
    · obtain ⟨r, hr⟩ := hall g (List.mem_of_getElem? hg)
      cases he.symm.trans hr

theorem waiting_of_pending (hm : s.main = .waiting err) (h : Pending s) (hs : Steps s t) :
    t.main = .waiting err ∧ Pending t := by
  induction hs with
  | refl => exact ⟨hm, h⟩
  | tail _ hstep ih => exact ih.2.step hstep ih.1

/-- The goroutines return nil, one after the other. -/
theorem exists_ended (hm : s.main = .waiting err) (h : ¬ Pending s) (k : Nat) :
    ∃ t, Steps s t ∧ t.main = .waiting err ∧ ¬ Pending t ∧ t.goroutines.length = s.goroutines.length ∧
      ∀ (j : Nat) (g : Goroutine), j < k → t.goroutines[j]? = some g → ∃ r, g.phase = .ended r := by
  induction k with
  | zero => exact ⟨s, .refl s, hm, h, rfl, fun j g hj => by omega⟩
  | succ k ih =>
    obtain ⟨t, hst, hmt, hpt, hlen, hended⟩ := ih
    have hsplit : ∀ j, j < k + 1 → j ≠ k → j < k := fun j hj hne => by omega
    rcases hg : t.goroutines[k]? with - | g
    · refine ⟨t, hst, hmt, hpt, hlen, fun j g' hj hg' => hended j g' (hsplit j hj ?_) hg'⟩
      rintro rfl
      cases hg.symm.trans hg'
    · rcases hphase : g.phase with - | e | r
      · -- it is still running
        refine ⟨_, hst.tail (.speakerReturns t k g none hg hphase), hmt, ?_, ?_, ?_⟩
        · refine fun hp => hpt (hp.imp_right ?_)
          rintro ⟨j, g', e, hg', he⟩
          rw [getElem_setPhase] at hg'
          obtain ⟨g₀, hg₀, rfl⟩ := Option.map_eq_some_iff.mp hg'
          by_cases hkj : k = j
          · rw [if_pos hkj] at he
            cases he
          · rw [if_neg hkj] at he
            exact ⟨j, g₀, e, hg₀, he⟩
        · rw [Process.setPhase, List.length_modify, hlen]
        · intro j g' hj hg'
          rw [getElem_setPhase] at hg'
          obtain ⟨g₀, hg₀, rfl⟩ := Option.map_eq_some_iff.mp hg'
          by_cases hkj : k = j
          · rw [if_pos hkj]
            exact ⟨none, rfl⟩
          · rw [if_neg hkj]
            exact hended j g₀ (hsplit j hj (Ne.symm hkj)) hg₀
      · exact absurd (.inr ⟨k, g, e, hg, hphase⟩) hpt
      · refine ⟨t, hst, hmt, hpt, hlen, fun j g' hj hg' => ?_⟩
        by_cases hjk : j = k
        · subst hjk
          cases hg.symm.trans hg'
          exact ⟨r, hphase⟩
        · exact hended j g' (hsplit j hj hjk) hg'

theorem exists_returned (hm : s.main = .waiting err) (h : ¬ Pending s) :
    ∃ t, Steps s t ∧ t.main = .returned err := by
  obtain ⟨t, hst, hmt, hpt, hlen, hended⟩ := exists_ended hm h s.goroutines.length
  have hall : ∀ g ∈ t.goroutines, ∃ r, g.phase = .ended r := by
    intro g hg
    obtain ⟨j, hj⟩ := List.mem_iff_getElem?.mp hg
    have hlt := (List.getElem?_eq_some_iff.mp hj).1
    exact hended j g (by omega) hj
  rcases hmgr : t.mgr with - | e | r
  · have hstep := Step.mgrReturns t none hmgr
    exact ⟨_, (hst.tail hstep).tail (.onWait _ err hmt ⟨none, rfl⟩ hall), rfl⟩
  · exact absurd (.inl ⟨e, hmgr⟩) hpt
  · exact ⟨_, hst.tail (.onWait t err hmt ⟨r, hmgr⟩ hall), rfl⟩

/-- Whoever was running has not ended with an error, as that cannot be sent. -/
structure NoErrors (s t : Process) : Prop where
  mgr : s.mgr = .running → ∀ e, t.mgr ≠ .ended (some e)
  goroutines : ∀ (j : Nat) (g : Goroutine), s.goroutines[j]? = some g →
    ∃ g', t.goroutines[j]? = some g' ∧ (g.phase = .running → ∀ e, g'.phase ≠ .ended (some e))

theorem NoErrors.step {u : Process} (h : NoErrors s t) (hm : t.main ≠ .selecting)
    (hs : Step t u) : NoErrors s u := by
  rcases hs.outside hm with rfl | ⟨r, hr, rfl⟩ | ⟨i, g, r, hg, hr, rfl⟩ | ⟨err', -, -, -, rfl⟩
  · exact ⟨h.mgr, h.goroutines⟩
  · refine ⟨fun _ e he => ?_, h.goroutines⟩
    cases r <;> cases he
  · refine ⟨h.mgr, fun j g₀ hg₀ => ?_⟩
    obtain ⟨g', hg', hne⟩ := h.goroutines j g₀ hg₀
    rw [getElem_setPhase, hg', Option.map_some]
    refine ⟨_, rfl, fun hrun e he => ?_⟩
    by_cases hij : i = j
    · rw [if_pos hij] at he
      cases r <;> cases he
    · rw [if_neg hij] at he
      exact hne hrun e he
  · exact ⟨h.mgr, h.goroutines⟩

theorem outside_steps (hm : s.main = .waiting err) (hs : Steps s t) :
    NoErrors s t ∧ (t.main = .waiting err ∨ t.main = .returned err ∧ (∃ r, t.mgr = .ended r) ∧
      ∀ g ∈ t.goroutines, ∃ r, g.phase = .ended r) := by
  induction hs with
  | refl =>
    refine ⟨⟨fun hr e he => ?_, fun j g hg => ⟨g, hg, fun hr e he => ?_⟩⟩, .inl hm⟩
    · cases hr.symm.trans he
    · cases hr.symm.trans he
  | @tail t u _ hstep ih =>
    obtain ⟨hno, hwait | ⟨hret, hmgr, hall⟩⟩ := ih
    · refine ⟨hno.step (by rw [hwait]; simp) hstep, ?_⟩
      rcases hstep.outside (by rw [hwait]; simp) with rfl | ⟨r, hr, rfl⟩ | ⟨i, g, r, hg, hr, rfl⟩ |
          ⟨err', hwait', hmgr, hall, rfl⟩
      · exact .inl hwait
      · exact .inl hwait
      · exact .inl hwait
      · cases hwait.symm.trans hwait'
        exact .inr ⟨rfl, hmgr, hall⟩
    · refine ⟨hno.step (by rw [hret]; simp) hstep, .inr ?_⟩
      -- nothing but a signal is left
      rcases hstep.outside (by rw [hret]; simp) with rfl | ⟨r, hr, rfl⟩ | ⟨i, g, r, hg, hr, rfl⟩ |
          ⟨err', hwait', -, -, rfl⟩
      · exact ⟨hret, hmgr, hall⟩
      · obtain ⟨r', hr'⟩ := hmgr
        cases hr.symm.trans hr'
      · obtain ⟨r', hr'⟩ := hall g (List.mem_of_getElem? hg)
        cases hr.symm.trans hr'
      · cases hret.symm.trans hwait'

/-- **Whether `Start` returns.**  Outside the loop, with `err` to return:

* If a goroutine has an error to send, `Start` never returns.
* If none has, it can return, and it returns `err`.
* When it returns, all that were still running have ended without an error. -/
theorem start_returns_iff (hm : s.main = .waiting err) :
    ((∃ t, Steps s t ∧ t.main ≠ .waiting err) ↔ ¬ Pending s) ∧
    (¬ Pending s → ∃ t, Steps s t ∧ t.main = .returned err) ∧
    ∀ t, Steps s t → t.main ≠ .waiting err → t.main = .returned err ∧
      (s.mgr = .running → t.mgr = .ended none) ∧
      ∀ (j : Nat) (g : Goroutine), s.goroutines[j]? = some g → g.phase = .running →
        ∃ g', t.goroutines[j]? = some g' ∧ g'.phase = .ended none := by
  have hreturn := exists_returned hm
  refine ⟨⟨?_, fun h => ?_⟩, hreturn, fun t hst hne => ?_⟩
  · rintro ⟨t, hst, hne⟩ hp
    exact hne (waiting_of_pending hm hp hst).1
  · obtain ⟨t, hst, hret⟩ := hreturn h
    exact ⟨t, hst, by rw [hret]; simp⟩
  · obtain ⟨hno, hwait | ⟨hret, ⟨r, hmgr⟩, hall⟩⟩ := outside_steps hm hst
    · exact absurd hwait hne
    refine ⟨hret, fun hr => ?_, fun j g hg hr => ?_⟩
    · rcases r with - | e
      · exact hmgr
      · exact absurd hmgr (hno.mgr hr e)
    · obtain ⟨g', hg', hne'⟩ := hno.goroutines j g hg
      obtain ⟨r', hr'⟩ := hall g' (List.mem_of_getElem? hg')
      rcases r' with - | e
      · exact ⟨g', hg', hr'⟩
      · exact absurd hr' (hne' hr e)

/-- An error that the process of the speaker for virtual addresses is gone keeps `Start` from
returning after a signal. -/
theorem start_returns_iff_blocked : ∃ s, Reach s ∧ s.ctxDone = true ∧
    ∀ t, Steps s t → t.main = .waiting none := by
  obtain ⟨s, hs, hctx, hm, -, hrun⟩ := signalled_twoSpeakers
  refine ⟨s.setPhase 1 (.sending "no such process"), ?_, hctx, ?_⟩
  · obtain ⟨s₀, hsetup, hsteps⟩ := hs
    exact ⟨s₀, hsetup, hsteps.tail (.speakerReturns s 1 _ (some "no such process") hrun rfl)⟩
  · intro t hst
    have hm' : (s.setPhase 1 (.sending "no such process")).main = .waiting none := hm
    have hpending : (s.setPhase 1 (.sending "no such process")).goroutines[1]? =
        some ⟨true, .sending "no such process"⟩ := by
      rw [getElem_setPhase, hrun]
      rfl
    by_contra hne
    exact (start_returns_iff hm').1.mp ⟨t, hst, hne⟩ (.inr ⟨1, _, _, hpending, rfl⟩)

end Wait

end OpenELB.SpeakerProcess
