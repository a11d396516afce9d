import RouteTraffic.Proofs.Runs
import RouteTraffic.Recorder
import Mathlib.Data.List.DropRight

/-! # The history behind a recorder

A recorder sees one sample at a time and forgets buckets.  Its history is split into maximal
runs of samples that fall into the same bucket (`bucketRuns`); what the recorder holds are the
last of these runs, each summed from its first sample on (`recordAll_snapshot`).

Forgetting and merging do not interfere (`keepLast_appendAt`), so the runs may be looked at
without the limit first: there, each sample extends the newest run or opens one
(`gather_eq`). -/

namespace RouteTraffic.Recorder

variable {α : Type}

/-! ### Runs of samples -/

section runs
variable (bucket : Span)

/-- The bucket of a sample. -/
def bucketOf (s : Instant × Traffic α) : Instant := bucketStart bucket s.1

/-- The maximal runs of consecutive samples of one bucket. -/
def bucketRuns (samples : List (Instant × Traffic α)) : List (List (Instant × Traffic α)) :=
  samples.splitBy fun a b => bucketOf bucket a = bucketOf bucket b

/-- The samples that follow a sample in its run. -/
def runAfter (s : Instant × Traffic α) (rest : List (Instant × Traffic α)) :
    List (Instant × Traffic α) :=
  rest.takeWhile fun x => bucketOf bucket x = bucketOf bucket s

/-- The samples from the end of the run of a sample on. -/
def pastRun (s : Instant × Traffic α) (rest : List (Instant × Traffic α)) :
    List (Instant × Traffic α) :=
  rest.dropWhile fun x => bucketOf bucket x = bucketOf bucket s

theorem runAfter_append_pastRun (s : Instant × Traffic α) (rest : List (Instant × Traffic α)) :
    runAfter bucket s rest ++ pastRun bucket s rest = rest :=
  List.takeWhile_append_dropWhile

theorem bucketOf_of_mem_runAfter {s x : Instant × Traffic α} {rest : List (Instant × Traffic α)}
    (h : x ∈ runAfter bucket s rest) : bucketOf bucket x = bucketOf bucket s := by
  simpa using List.mem_takeWhile_imp h

theorem bucketOf_ne_of_pastRun {s x : Instant × Traffic α} {rest : List (Instant × Traffic α)}
    (h : x ∈ (pastRun bucket s rest).head?) : bucketOf bucket s ≠ bucketOf bucket x :=
  key_ne_of_dropWhile (bucketOf bucket) h

theorem length_pastRun_le (s : Instant × Traffic α) (rest : List (Instant × Traffic α)) :
    (pastRun bucket s rest).length ≤ rest.length :=
  (List.dropWhile_sublist _).length_le

theorem bucketRuns_cons (s : Instant × Traffic α) (rest : List (Instant × Traffic α)) :
    bucketRuns bucket (s :: rest) =
      (s :: runAfter bucket s rest) :: bucketRuns bucket (pastRun bucket s rest) :=
  splitBy_cons_key (bucketOf bucket) s rest

end runs

/-! ### Samples and limits -/

variable [Channel α]

theorem appendAt_concat (t : Instant) (v : Traffic α) (points : List (Point α)) (p : Point α) :
    appendAt t v (points ++ [p]) =
      points ++ if p.time = t then [⟨t, p.value + v⟩] else [p, ⟨t, v⟩] := by
  induction points with
  | nil =>
      simp only [List.nil_append, appendAt]
  | cons q qs ih =>
      cases hqs : qs ++ [p] with
      | nil => simp at hqs
      | cons r rs =>
          rw [List.cons_append, hqs, appendAt, ← hqs, ih, List.cons_append]
          simp

omit [Channel α] in
theorem keepLast_eq (n : ℕ) (points : List (Point α)) : keepLast n points = points.rtake n := rfl

theorem rtake_rtake_append {β : Type} (n : ℕ) (l m : List β) :
    (l.rtake n ++ m).rtake n = (l ++ m).rtake n := by
  simp only [List.rtake_eq_reverse_take_reverse, List.reverse_append, List.reverse_reverse,
    List.take_append, List.take_take]
  rw [Nat.min_eq_left (Nat.sub_le _ _)]

/-- Forgetting before a sample is added makes no difference. -/
theorem keepLast_appendAt (n : ℕ) (t : Instant) (v : Traffic α) (points : List (Point α)) :
    keepLast n (appendAt t v (keepLast n points)) = keepLast n (appendAt t v points) := by
  simp only [keepLast_eq]
  cases n with
  | zero => simp
  | succ n =>
      rcases List.eq_nil_or_concat points with rfl | ⟨qs, p, rfl⟩
      · simp
      · rw [List.concat_eq_append, List.rtake_concat_succ, appendAt_concat, appendAt_concat]
        by_cases h : p.time = t
        · have hcut := rtake_rtake_append n qs []
          rw [List.append_nil, List.append_nil] at hcut
          rw [if_pos h, List.rtake_concat_succ, List.rtake_concat_succ, hcut]
        · rw [if_neg h, List.append_cons, List.append_cons qs, List.rtake_concat_succ,
            List.rtake_concat_succ, rtake_rtake_append]

/-! ### Recording without a limit -/

section gather
variable (bucket : Span)

/-- Adds a sample to points of which none is ever forgotten. -/
def gatherNext (points : List (Point α)) (s : Instant × Traffic α) : List (Point α) :=
  appendAt (bucketOf bucket s) s.2 points

/-- A run as one point: its bucket, and the sum from its first sample on. -/
def runPoint? : List (Instant × Traffic α) → Option (Point α)
  | [] => none
  | s :: rest => some ⟨bucketOf bucket s, rest.foldl (fun sum next => sum + next.2) s.2⟩

theorem recordAll_concat (r : Recorder α) (samples : List (Instant × Traffic α))
    (s : Instant × Traffic α) :
    r.recordAll (samples ++ [s]) = (r.recordAll samples).record s.1 s.2 := by
  unfold recordAll
  rw [List.foldl_append]
  rfl

theorem recordAll_config (r : Recorder α) (samples : List (Instant × Traffic α)) :
    (r.recordAll samples).config = r.config := by
  induction samples using List.reverseRecOn with
  | nil => rfl
  | append_singleton l s ih =>
      rw [recordAll_concat]
      exact ih

/-- A recorder holds the newest of the points that it would hold without a limit. -/
theorem recordAll_points (config : RecorderConfig) (samples : List (Instant × Traffic α)) :
    (recordAll { config } samples).points =
      keepLast config.maxPoints (samples.foldl (gatherNext config.bucket) []) := by
  induction samples using List.reverseRecOn with
  | nil => exact (List.rtake_nil _).symm
  | append_singleton l s ih =>
      rw [recordAll_concat, record, ih, recordAll_config, List.foldl_append]
      exact keepLast_appendAt ..

/-- The total is the sum of the points at all times. -/
theorem recordAll_total (config : RecorderConfig) (samples : List (Instant × Traffic α)) :
    (recordAll { config } samples).total =
      Traffic.sum ((recordAll { config } samples).points.map (·.value)) := by
  induction samples using List.reverseRecOn with
  | nil => rfl
  | append_singleton l s _ =>
      rw [recordAll_concat]
      rfl

theorem time_of_mem_appendAt {t : Instant} {v : Traffic α} {p : Point α} :
    ∀ {points : List (Point α)}, p ∈ appendAt t v points →
      p.time = t ∨ ∃ q ∈ points, p.time = q.time
  | [], h => Or.inl (congrArg Point.time (List.mem_singleton.mp h))
  | [q], h => by
      rw [appendAt] at h
      split_ifs at h
      · exact Or.inl (congrArg Point.time (List.mem_singleton.mp h))
      · rcases List.mem_cons.mp h with rfl | h
        · exact Or.inr ⟨p, List.mem_cons_self, rfl⟩
        · exact Or.inl (congrArg Point.time (List.mem_singleton.mp h))
  | q :: r :: rest, h => by
      rcases List.mem_cons.mp h with rfl | h
      · exact Or.inr ⟨p, List.mem_cons_self, rfl⟩
      · refine (time_of_mem_appendAt h).imp_right ?_
        rintro ⟨x, hx, hpx⟩
        exact ⟨x, List.mem_cons_of_mem _ hx, hpx⟩

theorem time_of_mem_recordAll {config : RecorderConfig} {samples : List (Instant × Traffic α)}
    {p : Point α} (h : p ∈ (recordAll { config } samples).points) :
    ∃ s ∈ samples, p.time = bucketOf config.bucket s := by
  induction samples using List.reverseRecOn generalizing p with
  | nil => cases h
  | append_singleton l s ih =>
      rw [recordAll_concat, record, recordAll_config] at h
      rcases time_of_mem_appendAt (List.mem_of_mem_drop h) with htime | ⟨q, hq, htime⟩
      · exact ⟨s, List.mem_append_right l List.mem_cons_self, htime⟩
      · obtain ⟨x, hx, hqx⟩ := ih hq
        exact ⟨x, List.mem_append_left _ hx, htime.trans hqx⟩

/-! ### One point for each run -/

/-- A run extends the point that its first sample has opened. -/
theorem foldl_gatherNext_run (b : Instant) (points : List (Point α)) :
    ∀ (run : List (Instant × Traffic α)) (v : Traffic α), (∀ s ∈ run, bucketOf bucket s = b) →
      run.foldl (gatherNext bucket) (points ++ [⟨b, v⟩]) =
        points ++ [⟨b, run.foldl (fun sum next => sum + next.2) v⟩]
  | [], _, _ => rfl
  | s :: rest, v, h => by
      have hs := h s List.mem_cons_self
      rw [List.foldl_cons, gatherNext, appendAt_concat, if_pos hs.symm, hs, List.foldl_cons]
      exact foldl_gatherNext_run b points rest _ fun x hx => h x (List.mem_cons_of_mem s hx)

theorem gatherNext_of_ne {s : Instant × Traffic α} {points : List (Point α)}
    (h : ∀ p ∈ points.getLast?, p.time ≠ bucketOf bucket s) :
    gatherNext bucket points s = points ++ [⟨bucketOf bucket s, s.2⟩] := by
  unfold gatherNext
  rcases List.eq_nil_or_concat points with rfl | ⟨qs, p, rfl⟩
  · rfl
  · rw [List.concat_eq_append] at h ⊢
    rw [appendAt_concat, if_neg (h p (by simp)), List.append_cons]

/-- Without a limit there is one point for each run. -/
theorem gather_eq : ∀ (samples : List (Instant × Traffic α)) (points : List (Point α)),
    (∀ p ∈ points.getLast?, ∀ s ∈ samples.head?, p.time ≠ bucketOf bucket s) →
      (samples.foldl (gatherNext bucket) points).map some =
        points.map some ++ (bucketRuns bucket samples).map (runPoint? bucket)
  | [], points, _ => by simp [bucketRuns]
  | s :: rest, points, h => by
      have hopen := gatherNext_of_ne bucket fun p hp => h p hp s rfl
      have hrun := foldl_gatherNext_run bucket (bucketOf bucket s) points
        (runAfter bucket s rest) s.2 fun x hx => bucketOf_of_mem_runAfter bucket hx
      have hnext : ∀ p ∈ (points ++ [(⟨bucketOf bucket s, (runAfter bucket s rest).foldl
            (fun sum next => sum + next.2) s.2⟩ : Point α)]).getLast?,
          ∀ x ∈ (pastRun bucket s rest).head?, p.time ≠ bucketOf bucket x := by
        intro p hp x hx
        rw [List.getLast?_concat, Option.mem_some_iff] at hp
        rw [← hp]
        exact bucketOf_ne_of_pastRun bucket hx
      have hshort := length_pastRun_le bucket s rest
      have ih := gather_eq (pastRun bucket s rest) _ hnext
      rw [List.foldl_cons, hopen, bucketRuns_cons]
      conv_lhs => rw [← runAfter_append_pastRun bucket s rest]
      rw [List.foldl_append, hrun, ih]
      simp [runPoint?]
  termination_by samples => samples.length
  decreasing_by
    simp only [List.length_cons]
    omega

end gather

/-- **A recorder holds the last runs of its history.**  After any samples, in any order, its
points are the newest runs of samples of one bucket, as many as the limit allows, each with the
sum from its first sample on; the total is the sum of these points from zero. -/
theorem recordAll_snapshot (config : RecorderConfig) (samples : List (Instant × Traffic α)) :
    let series := (recordAll { config } samples).snapshot
    series.points.map some =
        ((bucketRuns config.bucket samples).rtake config.maxPoints).map
          (runPoint? config.bucket) ∧
      series.total = (series.points.map (·.value)).foldl (· + ·) 0 := by
  refine ⟨?_, recordAll_total config samples⟩
  have hgather := gather_eq config.bucket samples [] (by simp)
  rw [List.map_nil, List.nil_append] at hgather
  have hlength := congrArg List.length hgather
  rw [List.length_map, List.length_map] at hlength
  show (recordAll { config } samples).points.map some = _
  rw [recordAll_points, keepLast, List.map_drop, hgather, hlength, List.rtake, List.map_drop]

end RouteTraffic.Recorder
