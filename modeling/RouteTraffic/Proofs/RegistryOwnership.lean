import RouteTraffic.Proofs.RecorderRuns
import RouteTraffic.Proofs.RegistryHistory

/-! # Who owns a recorder

A session is a client's work with one registry.  Its handles alias recorders, outlive the
registration of their key and may be cloned.  The invariant `Owned` compares a session with its
history: each registration that has begun owns one recorder, which holds the samples of that
registration and no others, and every handle leads to the recorder of its registration.

Each kind of operation keeps the invariant (`Owned.register`, `Owned.clone`, `Owned.record`,
`Owned.unregister`), so it holds after every history (`owned_after`), and what a registry
collects can be read off the history (`collect_after`). -/

namespace RouteTraffic.Registry

/-! ### Entries in the order of keys -/

theorem mem_of_lookup {key : UInt32} {n : ℕ} {l : List (UInt32 × ℕ)}
    (h : l.lookup key = some n) : (key, n) ∈ l := by
  obtain ⟨l₁, l₂, hl, -⟩ := List.lookup_eq_some_iff.mp h
  rw [hl]
  exact List.mem_append_right _ List.mem_cons_self

theorem not_mem_of_lookup {key : UInt32} {l : List (UInt32 × ℕ)} (h : l.lookup key = none) (n : ℕ) :
    (key, n) ∉ l := by
  intro hmem
  simpa using List.lookup_eq_none_iff.mp h _ hmem

theorem mem_enter {key : UInt32} {n : ℕ} {e : UInt32 × ℕ} : ∀ {l : List (UInt32 × ℕ)},
    (∀ m, (key, m) ∉ l) → (e ∈ enter key n l ↔ e = (key, n) ∨ e ∈ l)
  | [], _ => by simp [enter]
  | (k, m) :: rest, h => by
      have hk : key ≠ k := fun hk => h m (hk ▸ List.mem_cons_self)
      have ih := mem_enter (n := n) (e := e) fun i hi => h i (List.mem_cons_of_mem _ hi)
      -- the branch for a key that is already there is closed by `hk`
      rw [enter]
      split_ifs with hlt
      · exact List.mem_cons
      · rw [List.mem_cons, ih, List.mem_cons, or_left_comm]

theorem pairwise_enter {key : UInt32} {n : ℕ} : ∀ {l : List (UInt32 × ℕ)},
    l.Pairwise (fun a b => a.1 < b.1) → (∀ m, (key, m) ∉ l) →
      (enter key n l).Pairwise fun a b => a.1 < b.1
  | [], _, _ => List.pairwise_singleton _ _
  | (k, m) :: rest, h, hkey => by
      obtain ⟨hhead, hrest⟩ := List.pairwise_cons.mp h
      have hk : key ≠ k := fun hk => hkey m (hk ▸ List.mem_cons_self)
      have hkey' : ∀ i, (key, i) ∉ rest := fun i hi => hkey i (List.mem_cons_of_mem _ hi)
      rw [enter]
      split_ifs with hlt
      · refine List.pairwise_cons.mpr ⟨fun e he => ?_, h⟩
        rcases List.mem_cons.mp he with rfl | he
        · exact hlt
        · exact UInt32.lt_trans hlt (hhead e he)
      · refine List.pairwise_cons.mpr ⟨fun e he => ?_, pairwise_enter hrest hkey'⟩
        rcases (mem_enter hkey').mp he with rfl | he
        · exact UInt32.lt_of_le_of_ne (UInt32.not_lt.mp hlt) (Ne.symm hk)
        · exact hhead e he

/-! ### Sessions -/

/-- A registry, and the handles that have been obtained from it. -/
structure Session where
  registry : Registry
  handles : List RouteHandle := []

namespace Session

/-- Uses the handle with a number, if there is one. -/
def through (s : Session) (j : ℕ) (f : Registry → RouteHandle → Registry) : Session :=
  match s.handles[j]? with
  | some h => { s with registry := f s.registry h }
  | none => s

/-- One operation. -/
def step (s : Session) : Op → Session
  | .register key =>
      let (registry, h) := s.registry.register key
      { registry, handles := s.handles ++ [h] }
  | .clone j => { s with handles := s.handles ++ s.handles[j]?.toList }
  | .record j t v => s.through j fun r h => r.record h t v
  | .recordSent j now bytes => s.through j fun r h => r.recordSent h now bytes
  | .recordReceived j now bytes => s.through j fun r h => r.recordReceived h now bytes
  | .snapshot _ => s
  | .unregister key => { s with registry := (s.registry.unregister key).1 }
  | .collect => s

/-- The session after a history. -/
def after (config : RecorderConfig) : List Op → Session
  | [] => { registry := { config } }
  | op :: past => (after config past).step op

theorem step_of_sample {op : Op} {j : ℕ} {x : Instant × Traffic Float}
    (h : op.sample? = some (j, x)) (s : Session) :
    s.step op = s.through j fun r hd => r.record hd x.1 x.2 := by
  cases op with
  | record | recordSent | recordReceived => cases h; rfl
  | _ => cases h

end Session

/-! ### The invariant -/

variable {config : RecorderConfig} {s : Session} {op : Op} {past history : List Op}

/-- A new recorder after the samples of a registration. -/
def gathered (config : RecorderConfig) (history : List Op) (g : Registration) : Recorder Float :=
  Recorder.recordAll { config } (samples g history)

/-- The handle that leads to the recorder of a registration. -/
def handleOf (history : List Op) (g : Registration) : RouteHandle :=
  ⟨g.key, (registrations history).idxOf g⟩

/-- A session is as its history says. -/
structure Owned (config : RecorderConfig) (history : List Op) (s : Session) : Prop where
  configured : s.registry.config = config
  recorders : s.registry.recorders.toList =
    (registrations history).map (gathered config history)
  handles : s.handles = (grants history).map (handleOf history)
  registered : ∀ key n, (key, n) ∈ s.registry.registered ↔
    Registered key history ∧ n = (handleOf history (current key history)).recorder
  ascending : s.registry.registered.Pairwise fun a b => a.1 < b.1

theorem gathered_of_sample {j : ℕ} {x : Instant × Traffic Float} (hop : op.sample? = some (j, x))
    (g : Registration) :
    gathered config (op :: past) g =
      if (grants past)[j]? = some g then (gathered config past g).record x.1 x.2
      else gathered config past g := by
  rw [gathered, samples_of_sample hop]
  split_ifs
  · exact Recorder.recordAll_concat ..
  · rfl

theorem handleOf_same (h : registrations (op :: past) = registrations past) :
    handleOf (op :: past) = handleOf past := by
  funext g
  rw [handleOf, h, handleOf]

/-- A handle leads to the same recorder for ever. -/
theorem handleOf_cons {g : Registration} (h : g ∈ registrations past) :
    handleOf (op :: past) g = handleOf past g := by
  rw [handleOf, ← (registrations_extend op past).idxOf_eq_of_mem h, handleOf]

theorem recorder_handleOf_eq_iff {n : ℕ} {g g' : Registration} (hg : g ∈ registrations history)
    (hg' : (registrations history)[n]? = some g') : (handleOf history g).recorder = n ↔ g = g' := by
  obtain ⟨hn, rfl⟩ := List.getElem?_eq_some_iff.mp hg'
  constructor
  · rintro rfl
    exact (List.getElem_idxOf hn).symm
  · rintro rfl
    exact (nodup_registrations history).idxOf_getElem n hn

theorem modify_recorder {α : Type} {f : Registration → α} {u : α → α} {owner : Registration}
    (h : owner ∈ registrations history) :
    ((registrations history).map f).modify (handleOf history owner).recorder u =
      (registrations history).map fun g => if owner = g then u (f g) else f g := by
  apply List.ext_getElem?
  intro n
  rw [List.getElem?_modify, List.getElem?_map, List.getElem?_map]
  cases hn : (registrations history)[n]? with
  | none => rfl
  | some g =>
      simp only [recorder_handleOf_eq_iff h hn, Option.map_some, Option.map_eq_map]

theorem Owned.recorder (h : Owned config history s) {g : Registration}
    (hg : g ∈ registrations history) :
    s.registry.recorder (handleOf history g).recorder = gathered config history g := by
  have hn : (registrations history)[(handleOf history g).recorder]? = some g := by
    rw [handleOf, List.getElem?_eq_getElem (List.idxOf_lt_length_of_mem hg), List.getElem_idxOf]
  rw [Registry.recorder, Array.getD_eq_getD_getElem?, ← Array.getElem?_toList, h.recorders,
    List.getElem?_map, hn]
  rfl

/-! ### The steps -/

theorem Owned.record (h : Owned config past s) {j : ℕ} {x : Instant × Traffic Float}
    (hop : op.sample? = some (j, x)) : Owned config (op :: past) (s.step op) := by
  obtain ⟨hgrants, hregs, hkeys⟩ := same_of_sample hop past
  have hhandle := handleOf_same hregs
  have hhandles : s.handles = (grants (op :: past)).map (handleOf (op :: past)) := by
    rw [hgrants, hhandle, h.handles]
  have hregistered : ∀ key n, (key, n) ∈ s.registry.registered ↔ Registered key (op :: past) ∧
      n = (handleOf (op :: past) (current key (op :: past))).recorder := by
    intro key n
    rw [hhandle, (hkeys key).1, (hkeys key).2, h.registered]
  have hj : s.handles[j]? = (grants past)[j]?.map (handleOf past) := by
    rw [h.handles, List.getElem?_map]
  rw [Session.step_of_sample hop, Session.through, hj]
  cases hgrant : (grants past)[j]? with
  | none =>
      refine ⟨h.configured, ?_, hhandles, hregistered, h.ascending⟩
      show s.registry.recorders.toList = _
      rw [h.recorders, hregs]
      apply List.map_congr_left
      intro g _
      rw [gathered_of_sample hop, hgrant, if_neg (by simp)]
  | some owner =>
      refine ⟨h.configured, ?_, hhandles, hregistered, h.ascending⟩
      have howner := mem_registrations_of_mem_grants (List.mem_of_getElem? hgrant)
      show (s.registry.recorders.modify (handleOf past owner).recorder _).toList = _
      rw [Array.toList_modify, h.recorders, modify_recorder howner, hregs]
      apply List.map_congr_left
      intro g _
      simp only [gathered_of_sample hop, hgrant, Option.some_inj]

theorem Owned.clone (h : Owned config past s) (j : ℕ) :
    Owned config (.clone j :: past) (s.step (.clone j)) := by
  refine ⟨h.configured, h.recorders, ?_, h.registered, h.ascending⟩
  show s.handles ++ s.handles[j]?.toList = _
  rw [h.handles, List.getElem?_map, Option.toList_map, ← List.map_append]
  rfl

theorem Owned.unregister (h : Owned config past s) (key : UInt32) :
    Owned config (.unregister key :: past) (s.step (.unregister key)) := by
  refine ⟨h.configured, h.recorders, h.handles, fun k n => ?_, h.ascending.filter _⟩
  show (k, n) ∈ s.registry.registered.filter (fun e => e.1 != key) ↔ _
  rw [List.mem_filter, h.registered, bne_iff_ne, Registered]
  constructor
  · rintro ⟨⟨hk, hn⟩, hne⟩
    refine ⟨⟨Ne.symm hne, hk⟩, ?_⟩
    rw [current_unregister_of_ne (Ne.symm hne)]
    exact hn
  · rintro ⟨⟨hne, hk⟩, hn⟩
    rw [current_unregister_of_ne hne] at hn
    exact ⟨⟨hk, hn⟩, Ne.symm hne⟩

/-- Registering a registered key gives out another handle of its recorder. -/
theorem Owned.register_again (h : Owned config past s) {key : UInt32} {n : ℕ}
    (hn : s.registry.registered.lookup key = some n) :
    Owned config (.register key :: past) (s.step (.register key)) := by
  obtain ⟨hkey, rfl⟩ := (h.registered key n).mp (mem_of_lookup hn)
  have hregs : registrations (.register key :: past) = registrations past :=
    if_pos ((registered_iff key past).mp hkey)
  have hhandle := handleOf_same hregs
  rw [Session.step, Registry.register, hn]
  refine ⟨h.configured, ?_, ?_, fun k m => ?_, h.ascending⟩
  · rw [hregs]
    exact h.recorders
  · rw [hhandle, h.handles, grants, List.map_append]
    rfl
  · rw [hhandle, h.registered, Registered, or_iff_right_of_imp fun hk => hk ▸ hkey]
    rfl

theorem Owned.register_first (h : Owned config past s) {key : UInt32}
    (hn : s.registry.registered.lookup key = none) :
    Owned config (.register key :: past) (s.step (.register key)) := by
  have habsent := not_mem_of_lookup hn
  have hkey : ¬Registered key past := fun hk => habsent _ ((h.registered key _).mpr ⟨hk, rfl⟩)
  have hnew : current key past ∉ registrations past :=
    fun hc => hkey ((registered_iff key past).mpr hc)
  have hregs : registrations (.register key :: past) = registrations past ++ [current key past] :=
    if_neg hnew
  have hrecorder : s.registry.recorders.size =
      (handleOf (.register key :: past) (current key past)).recorder := by
    rw [handleOf, hregs, List.idxOf_append_of_notMem hnew, List.idxOf_cons_self,
      ← Array.length_toList, h.recorders, List.length_map, Nat.add_zero]
  have hfresh : gathered config past (current key past) = { config } := by
    rw [gathered, samples_eq_nil hnew]
    rfl
  rw [Session.step, Registry.register, hn]
  refine ⟨h.configured, ?_, ?_, fun k m => ?_, pairwise_enter h.ascending habsent⟩
  · show (s.registry.recorders.push _).toList = _
    rw [Array.toList_push, h.recorders, h.configured, hregs, List.map_append, ← hfresh]
    rfl
  · show s.handles ++ [⟨key, s.registry.recorders.size⟩] = _
    rw [hrecorder, h.handles, grants, List.map_append]
    congr 1
    apply List.map_congr_left
    intro g hg
    exact (handleOf_cons (mem_registrations_of_mem_grants hg)).symm
  · show (k, m) ∈ enter key s.registry.recorders.size s.registry.registered ↔ _
    rw [mem_enter habsent, hrecorder, h.registered, Registered]
    show _ ↔ _ ∧ m = (handleOf (.register key :: past) (current k past)).recorder
    constructor
    · rintro (he | ⟨hk, rfl⟩)
      · obtain ⟨rfl, rfl⟩ := Prod.mk.inj he
        exact ⟨Or.inl rfl, rfl⟩
      · rw [handleOf_cons ((registered_iff k past).mp hk)]
        exact ⟨Or.inr hk, rfl⟩
    · rintro ⟨rfl | hk, rfl⟩
      · exact Or.inl rfl
      · rw [handleOf_cons ((registered_iff k past).mp hk)]
        exact Or.inr ⟨hk, rfl⟩

theorem Owned.register (h : Owned config past s) (key : UInt32) :
    Owned config (.register key :: past) (s.step (.register key)) := by
  cases hn : s.registry.registered.lookup key with
  | some n => exact h.register_again hn
  | none => exact h.register_first hn

/-! ### All histories -/

/-- **Ownership.**  After every history, each registration that has begun owns one recorder. -/
theorem owned_after (config : RecorderConfig) : ∀ history : List Op,
    Owned config history (Session.after config history)
  | [] =>
      ⟨rfl, rfl, rfl, fun _ _ => ⟨fun h => absurd h List.not_mem_nil, fun h => h.1.elim⟩,
        List.Pairwise.nil⟩
  | op :: past => by
      have ih := owned_after config past
      cases op with
      | register key => exact ih.register key
      | clone j => exact ih.clone j
      | record | recordSent | recordReceived => exact ih.record rfl
      | unregister key => exact ih.unregister key
      | snapshot | collect =>
          exact ⟨ih.configured, ih.recorders, ih.handles, ih.registered, ih.ascending⟩

/-- **What a registry collects.**  After every history, it collects each key that has been
registered and not taken out since, once and in ascending order, and with it what a new recorder
holds after the samples of the present registration of the key alone; no handle from before the
key was last taken out belongs to that registration.  Every handle, also one of a registration
that has ended, shows what a new recorder holds after the samples of its own registration. -/
theorem collect_after (config : RecorderConfig) (history : List Op) :
    let s := Session.after config history
    (s.registry.collect.Pairwise fun a b => a.1 < b.1) ∧
      (∀ key series, (key, series) ∈ s.registry.collect ↔ Registered key history ∧
        series = (Recorder.recordAll { config } (samples (current key history) history)).snapshot) ∧
      (∀ key later earlier, current key (later ++ .unregister key :: earlier) ∉ grants earlier) ∧
      s.handles.map (fun h => (h.key, s.registry.snapshot h)) = (grants history).map fun g =>
        (g.key, (Recorder.recordAll { config } (samples g history)).snapshot) := by
  intro s
  have h := owned_after config history
  refine ⟨List.pairwise_map.mpr h.ascending, fun key series => ?_, current_not_mem_grants, ?_⟩
  · have hmem : (key, series) ∈ s.registry.collect ↔ ∃ n, (key, n) ∈ s.registry.registered ∧
        (s.registry.recorder n).snapshot = series := by
      simp [collect]
    rw [hmem]
    constructor
    · rintro ⟨n, hn, rfl⟩
      obtain ⟨hkey, rfl⟩ := (h.registered key n).mp hn
      rw [h.recorder ((registered_iff key history).mp hkey)]
      exact ⟨hkey, rfl⟩
    · rintro ⟨hkey, rfl⟩
      refine ⟨_, (h.registered key _).mpr ⟨hkey, rfl⟩, ?_⟩
      rw [h.recorder ((registered_iff key history).mp hkey)]
      rfl
  · rw [h.handles, List.map_map]
    apply List.map_congr_left
    intro g hg
    show (g.key, (s.registry.recorder (handleOf history g).recorder).snapshot) = _
    rw [h.recorder (mem_registrations_of_mem_grants hg)]
    rfl

end RouteTraffic.Registry
