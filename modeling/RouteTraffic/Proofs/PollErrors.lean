import RouteTraffic.Proofs.FilePolls

/-! # The error of a source

A poll that looks into the file notes what went wrong, or that nothing did.  A poll that leaves a
version it knows alone notes nothing, and what was noted before stays.  So after every run the
source reports what went wrong in the latest poll that looked (`lastError_after`), which need not be
the latest poll (`error_of_latest_look`, `error_outlives_file`). -/

namespace RouteTraffic

namespace FileSource

/-- What goes wrong when a file is read. -/
def failure? (file : Option StoredFile) : Option String :=
  match readSnapshot (StoredFile.readText file) with
  | .ok _ => none
  | .error e => some e

theorem failure?_isSome_iff (file : Option StoredFile) :
    (failure? file).isSome ↔ ∀ f ∈ file, f.snapshot? = none := by
  unfold failure?
  cases file with
  | none => simp [StoredFile.readText, readSnapshot]
  | some f =>
      have hread := toOption_readSnapshot f
      cases h : readSnapshot (StoredFile.readText (some f)) with
      | ok v =>
          rw [h] at hread
          simp [← hread, Except.toOption]
      | error e =>
          rw [h] at hread
          simp [← hread, Except.toOption]

/-- A poll that looks into the file notes what goes wrong, and one that does not notes nothing. -/
theorem poll_lastError (s : FileSource) (file : Option StoredFile) :
    (s.poll file).1.lastError =
      if s.wantsRead (file.map (·.modified)) then failure? file else s.lastError := by
  unfold poll pollBetween
  dsimp only
  split_ifs with h
  · unfold receive failure?
    cases readSnapshot (StoredFile.readText file) <;> rfl
  · rfl

namespace Watch

instance (w : Watch) : Decidable w.Reads := inferInstanceAs (Decidable (_ = true))

/-- What a poll that looks into the file finds there; nothing is found by another event. -/
def look? (w : Watch) : Event → Option (Option StoredFile)
  | .poll => if w.Reads then some w.file else none
  | _ => none

/-- What the polls of a run found that looked into the file, the latest last. -/
def looks (w : Watch) : List Event → List (Option StoredFile)
  | [] => []
  | e :: events => (w.look? e).toList ++ (w.step e).looks events

variable (w : Watch)

theorem lastError_step (e : Event) :
    (w.step e).source.lastError = ((w.look? e).map failure?).getD w.source.lastError := by
  cases e with
  | write f => rfl
  | remove => rfl
  | poll =>
      have hpoll : (w.step .poll).source.lastError =
          if w.Reads then failure? w.file else w.source.lastError :=
        w.source.poll_lastError w.file
      rw [hpoll, look?]
      split_ifs <;> rfl

/-- After a run a source reports what went wrong in the latest poll that looked into the file. -/
theorem lastError_after (events : List Event) :
    (w.after events).source.lastError =
      ((w.looks events).getLast?.map failure?).getD w.source.lastError := by
  induction events generalizing w with
  | nil => rfl
  | cons e events ih =>
      show ((w.step e).after events).source.lastError = _
      rw [ih, lastError_step, looks, List.getLast?_append]
      cases (w.step e).looks events |>.getLast? with
      | some file => rfl
      | none => cases w.look? e <;> rfl

theorem after_concat (events : List Event) (e : Event) :
    w.after (events ++ [e]) = (w.after events).step e := by
  unfold after
  rw [List.foldl_append]
  rfl

end Watch

/-- **A source reports the failure of its latest look.**  After every poll of every run there is an
error if and only if the file was missing or held no snapshot when a poll last looked into it.  A
poll that looks reports exactly its own failure; a poll that does not look leaves the report of the
poll before as it is. -/
theorem error_of_latest_look (path : String) (events : List Event) :
    let w := (Watch.start path).after events
    let polled := (Watch.start path).after (events ++ [.poll])
    (polled.source.lastError.isSome ↔
        ∃ file ∈ ((Watch.start path).looks (events ++ [.poll])).getLast?,
          ∀ f ∈ file, f.snapshot? = none) ∧
      (w.Reads → (polled.source.lastError.isSome ↔ ∀ f ∈ w.file, f.snapshot? = none)) ∧
      (¬w.Reads → polled.source.lastError = w.source.lastError) := by
  intro w polled
  have hstep : polled.source.lastError = ((w.look? .poll).map failure?).getD w.source.lastError := by
    rw [← Watch.lastError_step, ← Watch.after_concat]
  refine ⟨?_, fun hreads => ?_, fun hknown => ?_⟩
  · rw [Watch.lastError_after]
    cases ((Watch.start path).looks (events ++ [.poll])).getLast? with
    | none => simp [Watch.start]
    | some file => simp [failure?_isSome_iff]
  · rw [hstep, Watch.look?, if_pos hreads]
    exact failure?_isSome_iff w.file
  · rw [hstep, Watch.look?, if_neg hknown]
    rfl

/-- A damaged file after a delivery: the poll that looks into it fails, and after the file is gone
polls look no more. -/
theorem error_of_latest_look_gone :
    let damaged : StoredFile := ⟨9, "[".toUTF8⟩
    let events : List Event := [.write ⟨5, "[]".toUTF8⟩, .poll, .write damaged]
    let w := (Watch.start "services.json").after events
    let failed := (Watch.start "services.json").after (events ++ [.poll])
    let gone := (Watch.start "services.json").after (events ++ [.poll, .remove])
    let polled := (Watch.start "services.json").after (events ++ [.poll, .remove] ++ [.poll])
    (w.Reads ∧ (∀ f ∈ w.file, f.snapshot? = none) ∧ failed.source.lastError.isSome) ∧
      ¬gone.Reads ∧ polled.source.lastError = gone.source.lastError := by
  intro damaged events w failed gone polled
  have hreads : w.Reads := by cbv
  have hbad : ∀ f ∈ w.file, f.snapshot? = none := by
    intro f hf
    obtain rfl : damaged = f := Option.some.inj hf
    cbv
  have hwants : gone.source.wantsRead gone.seen = false := by cbv
  have hgone : ¬gone.Reads := Bool.eq_false_iff.mp hwants
  have hfailed := (error_of_latest_look "services.json" events).2.1 hreads
  have hkept := (error_of_latest_look "services.json" (events ++ [.poll, .remove])).2.2 hgone
  exact ⟨⟨hreads, hbad, hfailed.mpr hbad⟩, hgone, hkept⟩

/-- The error of a damaged file is still there after a poll that did not look, since the file was
gone. -/
theorem error_outlives_file :
    let events : List Event :=
      [.write ⟨5, "[]".toUTF8⟩, .poll, .write ⟨9, "[".toUTF8⟩, .poll, .remove]
    let w := (Watch.start "services.json").after events
    let polled := (Watch.start "services.json").after (events ++ [.poll])
    ¬(polled.source.lastError.isSome ↔ w.Reads ∧ ∀ f ∈ w.file, f.snapshot? = none) := by
  intro events w polled h
  have herror : polled.source.lastError.isSome := by cbv
  have hwants : w.source.wantsRead w.seen = false := by cbv
  exact Bool.eq_false_iff.mp hwants (h.mp herror).1

end FileSource

end RouteTraffic
