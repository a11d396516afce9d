import RouteTraffic.FileSource
import Mathlib

/-! # Polls of a changing file

A poll reads the file unless it knows its version already, and what it has read decides what it
returns and remembers (`poll_cases`).  Over every run of writes, removals and polls the time that
the source remembers is that of its latest delivery (`remembers_after`), so a poll delivers
exactly if the file holds a snapshot that is newer than that (`poll_delivers_iff`). -/

namespace RouteTraffic

/-- The snapshot in a file, if its bytes are a text and the text is a document. -/
def StoredFile.snapshot? (f : StoredFile) : Option (List Snapshot.Service) :=
  (String.fromUTF8? f.bytes).bind fun text =>
    (Snapshot.Document.read text).toOption.map Snapshot.Document.services

namespace FileSource

/-! ### One poll -/

section poll
variable (s : FileSource)

theorem toOption_readSnapshot (f : StoredFile) :
    (readSnapshot (StoredFile.readText (some f))).toOption = f.snapshot? := by
  unfold StoredFile.readText StoredFile.snapshot?
  dsimp only
  cases String.fromUTF8? f.bytes with
  | none => rfl
  | some text =>
      unfold readSnapshot
      dsimp only [Option.bind_some]
      cases Snapshot.Document.read text with
      | ok d => rfl
      | error e => rfl

theorem receive_cases (seen : Option ℤ) (file : Option StoredFile) :
    (∃ f v, file = some f ∧ f.snapshot? = some v ∧ s.receive seen (StoredFile.readText file) =
        ({ s with lastError := none, lastModified := seen }, some v)) ∨
      (∀ f ∈ file, f.snapshot? = none) ∧ ∃ e, s.receive seen (StoredFile.readText file) =
        ({ s with lastError := some e }, none) := by
  unfold receive
  cases file with
  | none => exact Or.inr ⟨fun f hf => (nomatch hf), _, rfl⟩
  | some f =>
      have hread := toOption_readSnapshot f
      cases h : readSnapshot (StoredFile.readText (some f)) with
      | ok v =>
          rw [h] at hread
          exact Or.inl ⟨f, v, rfl, hread.symm, rfl⟩
      | error e =>
          rw [h] at hread
          refine Or.inr ⟨fun g hg => ?_, e, rfl⟩
          rw [← Option.some.inj hg, ← hread]
          rfl

theorem wantsRead_iff (seen : Option ℤ) :
    s.wantsRead seen ↔ ∀ last ∈ s.lastModified, ∃ current ∈ seen, last < current := by
  unfold wantsRead
  cases s.lastModified with
  | none => simp
  | some last => cases seen <;> simp

/-- A poll leaves a version it knows alone, delivers a newer snapshot, or notes a failure. -/
theorem poll_cases (file : Option StoredFile) :
    (¬ s.wantsRead (file.map (·.modified)) ∧ s.poll file = (s, none)) ∨
      s.wantsRead (file.map (·.modified)) ∧
        ((∃ f v, file = some f ∧ f.snapshot? = some v ∧ s.poll file =
            ({ s with lastError := none, lastModified := some f.modified }, some v)) ∨
          (∀ f ∈ file, f.snapshot? = none) ∧
            ∃ e, s.poll file = ({ s with lastError := some e }, none)) := by
  unfold poll pollBetween
  dsimp only
  split_ifs with h
  · refine Or.inr ⟨h, ?_⟩
    rcases s.receive_cases (file.map (·.modified)) file with ⟨f, v, rfl, hv, heq⟩ | hnone
    · exact Or.inl ⟨f, v, rfl, hv, heq⟩
    · exact Or.inr hnone
  · exact Or.inl ⟨h, rfl⟩

end poll

/-! ### Runs -/

/-- What happens to a source and its file. -/
inductive Event where
  | write (file : StoredFile)
  | remove
  | poll

/-- A snapshot that a poll returned, and the time of change that the poll saw. -/
structure Delivery where
  seen : Option ℤ
  services : List Snapshot.Service

/-- A source, its file, and what its polls have returned, the latest first. -/
structure Watch where
  source : FileSource
  file : Option StoredFile
  deliveries : List Delivery

namespace Watch

/-- A new source of a file that is not there yet. -/
def start (path : String) : Watch := ⟨{ path }, none, []⟩

/-- The time of change that a poll would see. -/
def seen (w : Watch) : Option ℤ := w.file.map (·.modified)

/-- What a poll would return. -/
def answer (w : Watch) : Option (List Snapshot.Service) := (w.source.poll w.file).2

/-- A poll would look into the file. -/
def Reads (w : Watch) : Prop := w.source.wantsRead w.seen

/-- What one event makes of a source and its file. -/
def step (w : Watch) : Event → Watch
  | .write f => { w with file := some f }
  | .remove => { w with file := none }
  | .poll =>
      { w with
        source := (w.source.poll w.file).1
        deliveries := (w.answer.map (Delivery.mk w.seen)).toList ++ w.deliveries }

/-- What a sequence of events makes of them. -/
def after (w : Watch) (events : List Event) : Watch := events.foldl step w

/-- What a poll has to be newer than. -/
def NewerThan (seen : Option ℤ) (d : Delivery) : Prop :=
  ∃ last ∈ d.seen, ∃ current ∈ seen, last < current

/-- The source remembers the time of its latest delivery, and each delivery was newer than those
before it. -/
structure Remembers (w : Watch) : Prop where
  last : w.source.lastModified = w.deliveries.head?.bind Delivery.seen
  seen_isSome : ∀ d ∈ w.deliveries, d.seen.isSome
  newer : w.deliveries.Pairwise fun later earlier => NewerThan later.seen earlier

variable {w : Watch}

theorem Remembers.reads_iff (h : Remembers w) :
    w.Reads ↔ ∀ d ∈ w.deliveries.head?, NewerThan w.seen d := by
  rw [Reads, wantsRead_iff, h.last]
  cases hd : w.deliveries.head? with
  | none => simp
  | some d =>
      obtain ⟨last, hlast⟩ := Option.isSome_iff_exists.mp
        (h.seen_isSome d (List.mem_of_mem_head? (hd ▸ rfl)))
      simp [NewerThan, hlast]

theorem Remembers.newer_of_head (h : Remembers w) {seen : Option ℤ}
    (hhead : ∀ d ∈ w.deliveries.head?, NewerThan seen d) :
    ∀ d ∈ w.deliveries, NewerThan seen d := by
  have hnewer := h.newer
  cases hd : w.deliveries with
  | nil => simp
  | cons d ds =>
      rw [hd] at hhead hnewer
      have hlast : NewerThan seen d := hhead d rfl
      refine List.forall_mem_cons.mpr ⟨hlast, fun e he => ?_⟩
      obtain ⟨a, ha, b, hb, hab⟩ := hlast
      obtain ⟨x, hx, y, hy, hxy⟩ := List.rel_of_pairwise_cons hnewer he
      obtain rfl : y = a := Option.mem_unique hy ha
      exact ⟨x, hx, b, hb, Int.lt_trans hxy hab⟩

theorem Remembers.poll (h : Remembers w) : Remembers (w.step .poll) := by
  unfold step answer
  rcases w.source.poll_cases w.file with ⟨-, heq⟩ | ⟨hreads, ⟨f, v, hf, -, heq⟩ | ⟨-, e, heq⟩⟩
  · rw [heq]
    exact ⟨h.last, h.seen_isSome, h.newer⟩
  · have hnewer : ∀ d ∈ w.deliveries, NewerThan w.seen d := h.newer_of_head (h.reads_iff.mp hreads)
    have hseen : w.seen = some f.modified := by rw [seen, hf]; rfl
    rw [heq]
    constructor
    · exact hseen.symm
    · refine List.forall_mem_cons.mpr ⟨?_, h.seen_isSome⟩
      show w.seen.isSome
      rw [hseen]
      rfl
    · exact List.pairwise_cons.mpr ⟨hnewer, h.newer⟩
  · rw [heq]
    exact ⟨h.last, h.seen_isSome, h.newer⟩

theorem Remembers.step (h : Remembers w) (e : Event) : Remembers (w.step e) := by
  cases e with
  | write f => exact ⟨h.last, h.seen_isSome, h.newer⟩
  | remove => exact ⟨h.last, h.seen_isSome, h.newer⟩
  | poll => exact h.poll

theorem Remembers.after (h : Remembers w) (events : List Event) : Remembers (w.after events) := by
  induction events generalizing w with
  | nil => exact h
  | cons e events ih => exact ih (h.step e)

theorem remembers_after (path : String) (events : List Event) :
    Remembers ((start path).after events) :=
  Remembers.after ⟨rfl, fun _ hd => absurd hd List.not_mem_nil, List.Pairwise.nil⟩ events

/-- A poll that fails changes nothing that later polls look at. -/
theorem step_poll_of_unreadable {f : StoredFile} (hf : w.file = some f)
    (hbad : f.snapshot? = none) (hreads : w.Reads) :
    (w.step .poll).file = some f ∧ (w.step .poll).Reads ∧ w.answer = none := by
  unfold step answer Reads seen
  rcases w.source.poll_cases w.file with ⟨hnot, -⟩ | ⟨-, ⟨g, v, hg, hv, -⟩ | ⟨-, e, heq⟩⟩
  · exact absurd hreads hnot
  · rw [hf, Option.some.injEq] at hg
    rw [← hg, hbad] at hv
    cases hv
  · rw [heq]
    exact ⟨hf, hreads, rfl⟩

/-- Until it changes, a file that cannot be read is read by every poll. -/
theorem retried {f : StoredFile} (hbad : f.snapshot? = none) (n : ℕ) :
    ∀ {w : Watch}, w.file = some f → w.Reads →
      (w.after (List.replicate n .poll)).Reads ∧
        (w.after (List.replicate n .poll)).answer = none := by
  induction n with
  | zero => exact fun hf hreads => ⟨hreads, (step_poll_of_unreadable hf hbad hreads).2.2⟩
  | succ n ih =>
      intro w hf hreads
      obtain ⟨hf', hreads', -⟩ := step_poll_of_unreadable hf hbad hreads
      exact ih hf' hreads'

end Watch

/-- **A poll delivers exactly what is new.**  After every run, a poll returns a snapshot if and only
if the file is there, holds that snapshot, and is newer than what the latest delivery saw.  So the
times of the deliveries increase, and a file that was read without success is read again by every
poll until it changes. -/
theorem poll_delivers_iff (path : String) (events : List Event) :
    let w := (Watch.start path).after events
    (∀ v, w.answer = some v ↔ ∃ f, w.file = some f ∧ f.snapshot? = some v ∧
        ∀ d ∈ w.deliveries.head?, ∃ last ∈ d.seen, last < f.modified) ∧
      w.deliveries.Pairwise (fun later earlier =>
        ∃ last ∈ earlier.seen, ∃ current ∈ later.seen, last < current) ∧
      ∀ f, w.file = some f → f.snapshot? = none → w.Reads → ∀ n,
        (w.after (List.replicate n .poll)).Reads ∧
          (w.after (List.replicate n .poll)).answer = none := by
  intro w
  have hw : w.Remembers := Watch.remembers_after path events
  refine ⟨fun v => ?_, hw.newer, fun f hf hbad hreads n => Watch.retried hbad n hf hreads⟩
  have hnew : ∀ {f}, w.file = some f →
      (w.Reads ↔ ∀ d ∈ w.deliveries.head?, ∃ last ∈ d.seen, last < f.modified) := by
    intro f hf
    rw [hw.reads_iff, Watch.seen, hf]
    simp [Watch.NewerThan]
  unfold Watch.answer
  rcases w.source.poll_cases w.file with
    ⟨hknown, heq⟩ | ⟨hreads, ⟨f, u, hf, hu, heq⟩ | ⟨hbad, e, heq⟩⟩
  · rw [heq]
    refine ⟨fun h => (nomatch h), ?_⟩
    rintro ⟨f, hf, -, hnewer⟩
    exact absurd ((hnew hf).mpr hnewer) hknown
  · rw [heq]
    constructor
    · intro h
      exact ⟨f, hf, hu.trans h, (hnew hf).mp hreads⟩
    · rintro ⟨g, hg, hv, -⟩
      obtain rfl : f = g := Option.some.inj (hf.symm.trans hg)
      exact hu.symm.trans hv
  · rw [heq]
    refine ⟨fun h => (nomatch h), ?_⟩
    rintro ⟨f, hf, hv, -⟩
    rw [hbad f hf] at hv
    cases hv

/-- A damaged file after a delivery, which is read again and again, and then a whole one. -/
theorem poll_delivers_iff_after_damage :
    let damaged : StoredFile := ⟨9, "[".toUTF8⟩
    let whole : StoredFile := ⟨12, "[]".toUTF8⟩
    let events : List Event := [.write ⟨5, "[]".toUTF8⟩, .poll, .write damaged]
    let w := (Watch.start "services.json").after events
    let w' := (Watch.start "services.json").after (events ++ [.poll, .write whole])
    (w.file = some damaged ∧ damaged.snapshot? = none ∧ w.Reads ∧
        (w.after (List.replicate 3 .poll)).Reads ∧
          (w.after (List.replicate 3 .poll)).answer = none) ∧
      (w'.file = some whole ∧ whole.snapshot? = some [] ∧
        ∀ d ∈ w'.deliveries.head?, ∃ last ∈ d.seen, last < whole.modified) ∧
      w'.answer = some [] := by
  intro damaged whole events w w'
  have hbad : damaged.snapshot? = none := by cbv
  have hreads : w.Reads := by cbv
  have hgood : whole.snapshot? = some [] := by cbv
  have hdelivered : w'.deliveries.head? = some ⟨some 5, []⟩ := by cbv
  have hnewer : ∀ d ∈ w'.deliveries.head?, ∃ last ∈ d.seen, last < whole.modified := by
    intro d hd
    obtain rfl : ⟨some 5, []⟩ = d := Option.some.inj (hdelivered.symm.trans hd)
    exact ⟨5, rfl, by decide⟩
  have hretry := (poll_delivers_iff "services.json" events).2.2 damaged rfl hbad hreads 3
  have hdeliver := (poll_delivers_iff "services.json" (events ++ [.poll, .write whole])).1 []
  exact ⟨⟨rfl, hbad, hreads, hretry⟩, ⟨rfl, hgood, hnewer⟩,
    hdeliver.mpr ⟨whole, rfl, hgood, hnewer⟩⟩

end FileSource
end RouteTraffic
