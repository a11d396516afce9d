import RouteTraffic.Proofs.FilePolls

/-! # A writer between the steps of a poll

The writer of a file and a source that polls it take turns in any order, step by step: a poll
looks at the time of the last change first and reads the content later, and the file may be
written or removed in between.  If every write has a later time than those before it, then what
the source remembers is never ahead of what it has delivered (`Current.step`).  So a poll that
finds nothing new after the last write has a reason: that write was delivered
(`last_write_delivered`). -/

namespace RouteTraffic.FileSource

/-- A step of the writer or of the source. -/
inductive Action where
  | write (file : StoredFile)
  | remove
  /-- A poll starts and looks at the time of the last change. -/
  | look
  /-- The poll reads the content. -/
  | read

/-- A poll between its steps: the writes before it, and the time of change it saw. -/
structure OpenPoll where
  writesBefore : ℕ
  seen : Option ℤ

/-- A poll that has ended: the writes before it, and what it returned. -/
structure EndedPoll where
  writesBefore : ℕ
  answer : Option (List Snapshot.Service)

/-- A source and a file with all that was written to it and all polls, the latest first. -/
structure Shared where
  source : FileSource
  file : Option StoredFile
  written : List StoredFile
  running : Option OpenPoll
  ended : List EndedPoll

namespace Shared

/-- A new source of a file that is not there yet. -/
def start (path : String) : Shared := ⟨{ path }, none, [], none, []⟩

/-- The time of change that a poll would see. -/
def seen (s : Shared) : Option ℤ := s.file.map (·.modified)

/-- The snapshot that was returned last. -/
def lastAnswer? (s : Shared) : Option (List Snapshot.Service) := s.ended.findSome? (·.answer)

/-- A poll looks at the time of change, and ends if it has nothing to read. -/
def look (s : Shared) : Shared :=
  if s.source.wantsRead s.seen then { s with running := some ⟨s.written.length, s.seen⟩ }
  else { s with ended := ⟨s.written.length, none⟩ :: s.ended }

/-- A poll that has looked reads the content, and ends. -/
def read (s : Shared) (p : OpenPoll) : Shared :=
  let (source, answer) := s.source.receive p.seen (StoredFile.readText s.file)
  { s with source, running := none, ended := ⟨p.writesBefore, answer⟩ :: s.ended }

/-- One step.  A source runs one poll at a time, and reads only in a poll. -/
def step (s : Shared) : Action → Shared
  | .write f => { s with file := some f, written := f :: s.written }
  | .remove => { s with file := none }
  | .look =>
      match s.running with
      | none => s.look
      | some _ => s
  | .read =>
      match s.running with
      | none => s
      | some p => s.read p

/-- Any number of steps, in any order. -/
def after (s : Shared) (actions : List Action) : Shared := actions.foldl step s

/-! ### The two steps of a poll -/

section steps
variable {s : Shared} {changes : List Action}

/-- The steps are steps of the writer. -/
def ByWriter (changes : List Action) : Prop :=
  ∀ a ∈ changes, (∃ f, a = .write f) ∨ a = .remove

/-- The writer changes nothing but the file, and no matter what it finds there. -/
theorem after_byWriter (h : ByWriter changes) : ∀ {s t : Shared}, s.file = t.file →
    (s.after changes).file = (t.after changes).file ∧
      (s.after changes).source = s.source ∧ (s.after changes).running = s.running ∧
        (s.after changes).ended = s.ended := by
  induction changes with
  | nil => exact fun hfile => ⟨hfile, rfl, rfl, rfl⟩
  | cons a changes ih =>
      intro s t hfile
      obtain ⟨ha, hchanges⟩ := List.forall_mem_cons.mp h
      rcases ha with ⟨f, rfl⟩ | rfl
      · exact ih hchanges (s := s.step (.write f)) (t := t.step (.write f)) rfl
      · exact ih hchanges (s := s.step .remove) (t := t.step .remove) rfl

theorem step_look (h : s.running = none) : s.step .look = s.look := by
  unfold step
  rw [h]

theorem step_look_of_running {p : OpenPoll} (h : s.running = some p) : s.step .look = s := by
  unfold step
  rw [h]

theorem step_read {p : OpenPoll} (h : s.running = some p) : s.step .read = s.read p := by
  unfold step
  rw [h]

theorem step_read_of_idle (h : s.running = none) : s.step .read = s := by
  unfold step
  rw [h]

/-- Looking, steps of the writer, and reading make up one poll. -/
theorem look_read (h : s.running = none) (hchanges : ByWriter changes) :
    let t := ((s.step .look).after changes).step .read
    let polled := s.source.pollBetween s.file (s.after changes).file
    t.source = polled.1 ∧ t.running = none ∧
      t.ended = ⟨s.written.length, polled.2⟩ :: s.ended := by
  rw [step_look h]
  by_cases hwants : s.source.wantsRead s.seen
  · have hlook : s.look = { s with running := some ⟨s.written.length, s.seen⟩ } := if_pos hwants
    have hpoll : s.source.pollBetween s.file (s.after changes).file =
        s.source.receive s.seen (StoredFile.readText (s.after changes).file) := if_pos hwants
    obtain ⟨hfile, hsource, hrunning, hended⟩ :=
      after_byWriter hchanges (s := s.look) (t := s) (by rw [hlook])
    have hopen : (s.look.after changes).running = some ⟨s.written.length, s.seen⟩ := by
      rw [hrunning, hlook]
    rw [step_read hopen, hpoll]
    unfold read
    rw [hfile, hsource, hended, hlook]
    exact ⟨rfl, rfl, rfl⟩
  · have hlook : s.look = { s with ended := ⟨s.written.length, none⟩ :: s.ended } := if_neg hwants
    have hpoll : s.source.pollBetween s.file (s.after changes).file = (s.source, none) :=
      if_neg hwants
    obtain ⟨-, hsource, hrunning, hended⟩ :=
      after_byWriter hchanges (s := s.look) (t := s) (by rw [hlook])
    have hidle : (s.look.after changes).running = none := by
      rw [hrunning, hlook]
      exact h
    rw [step_read_of_idle hidle, hpoll]
    dsimp only
    rw [hsource, hidle, hended, hlook]
    exact ⟨rfl, rfl, rfl⟩

end steps

/-! ### What every order of steps keeps -/

/-- Every write has a later time than those before it. -/
def Increasing (written : List StoredFile) : Prop :=
  written.Pairwise fun later earlier => earlier.modified < later.modified

theorem Increasing.eq_or_lt {written : List StoredFile} (h : Increasing written)
    {f g : StoredFile} (hf : written.head? = some f) (hg : g ∈ written) :
    g = f ∨ g.modified < f.modified := by
  cases written with
  | nil => cases hf
  | cons a rest =>
      obtain rfl : a = f := Option.some.inj hf
      rcases List.mem_cons.mp hg with rfl | hg
      · exact Or.inl rfl
      · exact Or.inr (List.rel_of_pairwise_cons h hg)

/-- The latest poll, if it started after the last write and returned nothing, had nothing to
return: the snapshot in the file is the one that was returned last. -/
def NothingLost (s : Shared) : Prop :=
  ∀ p ∈ s.ended.head?, p.writesBefore = s.written.length → p.answer = none →
    ∀ f ∈ s.file, ∀ v ∈ f.snapshot?, s.lastAnswer? = some v

/-- The source is not ahead of what it has delivered. -/
structure Current (s : Shared) : Prop where
  file : ∀ f ∈ s.file, s.written.head? = some f
  remembered : ∀ last ∈ s.source.lastModified, ∃ f ∈ s.written, last ≤ f.modified ∧
    f.snapshot?.isSome ∧ s.lastAnswer? = f.snapshot?
  seen : ∀ p ∈ s.running, ∀ t ∈ p.seen, ∃ f ∈ s.written, t = f.modified
  running_le : ∀ p ∈ s.running, p.writesBefore ≤ s.written.length
  ended_le : ∀ p ∈ s.ended, p.writesBefore ≤ s.written.length
  nothingLost : NothingLost s

variable {s : Shared}

theorem start_current (path : String) : Current (start path) where
  file _ h := nomatch h
  remembered _ h := nomatch h
  seen _ h := nomatch h
  running_le _ h := nomatch h
  ended_le _ h := absurd h List.not_mem_nil
  nothingLost _ h := nomatch h

/-- A write makes every poll so far one that started before the last write. -/
theorem Current.write (h : Current s) (f : StoredFile) : Current (s.step (.write f)) where
  file g hg := hg
  remembered last hlast := by
    obtain ⟨g, hg, hle, hsome, hanswer⟩ := h.remembered last hlast
    exact ⟨g, List.mem_cons_of_mem f hg, hle, hsome, hanswer⟩
  seen p hp t ht := by
    obtain ⟨g, hg, hgt⟩ := h.seen p hp t ht
    exact ⟨g, List.mem_cons_of_mem f hg, hgt⟩
  running_le p hp := Nat.le_succ_of_le (h.running_le p hp)
  ended_le p hp := Nat.le_succ_of_le (h.ended_le p hp)
  nothingLost p hp hwrites := by
    have hle : p.writesBefore ≤ s.written.length := h.ended_le p (List.mem_of_mem_head? hp)
    have heq : p.writesBefore = s.written.length + 1 := hwrites
    omega

theorem Current.remove (h : Current s) : Current (s.step .remove) where
  file _ hf := nomatch hf
  remembered := h.remembered
  seen := h.seen
  running_le := h.running_le
  ended_le := h.ended_le
  nothingLost _ _ _ _ _ hf := nomatch hf

theorem Current.look (h : Current s) (hinc : Increasing s.written) : Current s.look := by
  unfold Shared.look
  split_ifs with hwants
  · refine ⟨h.file, h.remembered, ?_, ?_, h.ended_le, h.nothingLost⟩
    · intro p hp t ht
      obtain rfl : ⟨s.written.length, s.seen⟩ = p := Option.some.inj hp
      obtain ⟨f, hf, rfl⟩ := Option.map_eq_some_iff.mp ht
      exact ⟨f, List.mem_of_mem_head? (h.file f hf), rfl⟩
    · intro p hp
      obtain rfl : ⟨s.written.length, s.seen⟩ = p := Option.some.inj hp
      exact Nat.le_refl _
  · have hlast : ∀ f ∈ s.file, ∀ v ∈ f.snapshot?, s.lastAnswer? = some v := by
      intro f hf v hv
      rw [wantsRead_iff] at hwants
      obtain ⟨last, hlast, hnot⟩ := not_forall₂.mp hwants
      obtain ⟨g, hg, hle, -, hanswer⟩ := h.remembered last hlast
      have hseen : f.modified ≤ last :=
        Int.not_lt.mp fun hlt => hnot ⟨f.modified, Option.mem_map_of_mem _ hf, hlt⟩
      rcases hinc.eq_or_lt (h.file f hf) hg with rfl | hlt
      · exact hanswer.trans hv
      · omega
    refine ⟨h.file, h.remembered, h.seen, h.running_le, ?_, fun _ _ _ _ => hlast⟩
    exact List.forall_mem_cons.mpr ⟨Nat.le_refl _, h.ended_le⟩

/-- A poll that reads a snapshot remembers a time that is not later than that of the file. -/
theorem Current.read (h : Current s) (hinc : Increasing s.written) {p : OpenPoll}
    (hp : s.running = some p) : Current (s.read p) := by
  have hle := h.running_le p hp
  unfold Shared.read
  rcases s.source.receive_cases p.seen s.file with ⟨f, v, hf, hv, heq⟩ | ⟨hbad, e, heq⟩
  · have hhead := h.file f hf
    rw [heq]
    refine ⟨h.file, ?_, fun _ hq => (nomatch hq), fun _ hq => (nomatch hq),
      List.forall_mem_cons.mpr ⟨hle, h.ended_le⟩, ?_⟩
    · intro last hlast
      obtain ⟨g, hg, rfl⟩ := h.seen p hp last hlast
      refine ⟨f, List.mem_of_mem_head? hhead, ?_, hv ▸ rfl, hv.symm⟩
      rcases hinc.eq_or_lt hhead hg with rfl | hlt
      · exact Int.le_refl _
      · exact Int.le_of_lt hlt
    · intro q hq _ hnone
      obtain rfl : ⟨p.writesBefore, some v⟩ = q := Option.some.inj hq
      cases hnone
  · rw [heq]
    refine ⟨h.file, h.remembered, fun _ hq => (nomatch hq), fun _ hq => (nomatch hq),
      List.forall_mem_cons.mpr ⟨hle, h.ended_le⟩, ?_⟩
    intro _ _ _ _ f hf v hv
    rw [hbad f hf] at hv
    cases hv

theorem written_suffix (s : Shared) (a : Action) : s.written <:+ (s.step a).written := by
  cases a with
  | write f => exact List.suffix_cons f s.written
  | remove => exact List.suffix_rfl
  | look =>
      have hsame : (s.step .look).written = s.written := by
        cases hr : s.running with
        | none =>
            rw [step_look hr, look]
            split_ifs <;> rfl
        | some p => exact congrArg written (step_look_of_running hr)
      exact hsame ▸ List.suffix_rfl
  | read =>
      have hsame : (s.step .read).written = s.written := by
        cases hr : s.running with
        | none => exact congrArg written (step_read_of_idle hr)
        | some p =>
            have hread : (s.read p).written = s.written := rfl
            exact (congrArg written (step_read hr)).trans hread
      exact hsame ▸ List.suffix_rfl

theorem increasing_of_step {a : Action} (h : Increasing (s.step a).written) :
    Increasing s.written :=
  List.Pairwise.sublist (written_suffix s a).sublist h

theorem Current.step (h : Current s) {a : Action} (hinc : Increasing (s.step a).written) :
    Current (s.step a) := by
  have hold := increasing_of_step hinc
  cases a with
  | write f => exact h.write f
  | remove => exact h.remove
  | look =>
      cases hr : s.running with
      | none => exact step_look hr ▸ h.look hold
      | some p => rwa [step_look_of_running hr]
  | read =>
      cases hr : s.running with
      | none => rwa [step_read_of_idle hr]
      | some p => exact step_read hr ▸ h.read hold hr

theorem current_after (path : String) (actions : List Action)
    (hinc : Increasing ((start path).after actions).written) :
    Current ((start path).after actions) := by
  induction actions using List.reverseRecOn with
  | nil => exact start_current path
  | append_singleton actions a ih =>
      rw [after, List.foldl_append] at hinc ⊢
      exact (ih (increasing_of_step hinc)).step hinc

end Shared

/-- **No final update is lost.**  The writer, whose writes have increasing times, and the polls of a
source take their steps in any order.  Whenever the latest poll started after the last write and
returned nothing, although the file is there and holds a snapshot, then the file is the last one
written, and its snapshot is the one that was returned last. -/
theorem last_write_delivered (path : String) (actions : List Action)
    (hinc : (((Shared.start path).after actions).written).Pairwise
      fun later earlier => earlier.modified < later.modified) :
    let s := (Shared.start path).after actions
    ∀ p ∈ s.ended.head?, p.writesBefore = s.written.length → p.answer = none →
      ∀ f ∈ s.file, ∀ v ∈ f.snapshot?, s.written.head? = some f ∧ s.lastAnswer? = some v := by
  intro s p hp hwrites hanswer f hf v hv
  have hs : s.Current := Shared.current_after path actions hinc
  exact ⟨hs.file f hf, hs.nothingLost p hp hwrites hanswer f hf v hv⟩

/-- The second write falls between the steps of the first poll, which returns it with the time of
the first write; the second poll returns it again, and the third has nothing left to return. -/
theorem last_write_delivered_between_steps :
    let early : StoredFile := ⟨1, "[]".toUTF8⟩
    let late : StoredFile := ⟨2, "\x7b\x7d".toUTF8⟩
    let s := (Shared.start "services.json").after
      [.write early, .look, .write late, .read, .look, .read, .look]
    s.written.Pairwise (fun later earlier => earlier.modified < later.modified) ∧
      s.ended.head? = some ⟨s.written.length, none⟩ ∧ s.file = some late ∧
        late.snapshot? = some [{}] ∧
      s.written.head? = some late ∧ s.lastAnswer? = some [{}] := by
  intro early late s
  have hwritten : s.written = [late, early] := by
    unfold s
    cbv
  have hinc : s.written.Pairwise fun later earlier => earlier.modified < later.modified := by
    rw [hwritten]
    decide
  have hended : s.ended.head? = some ⟨s.written.length, none⟩ := by
    unfold s
    cbv
  have hfile : s.file = some late := by
    unfold s
    cbv
  have hlate : late.snapshot? = some [{}] := by cbv
  exact ⟨hinc, hended, hfile, hlate,
    last_write_delivered "services.json" _ hinc _ hended rfl rfl late hfile [{}] hlate⟩

end RouteTraffic.FileSource
