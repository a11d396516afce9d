import RouteTraffic.Registry
import Mathlib.Data.List.Nodup

/-! # The history of a registry

What a client has done with a registry, operation by operation, read without any recorder.
Taking a key out ends its registration, so a registration is told from the others of its key
by how often the key had been taken out before (`Registration`).

* `Registered` says that a key has been registered and not taken out since.
* `grants` lists the registration that each handle was obtained in.
* `samples` lists what was recorded through the handles of one registration.
  A handle from before a key was taken out has no part in what is registered later
  (`current_not_mem_grants`).
* `registrations` lists the registrations in the order in which they began; a key is registered
  exactly if its present registration is among them (`registered_iff`), and nothing is recorded
  for a registration before it has begun (`samples_eq_nil`). -/

namespace RouteTraffic.Registry

/-- What a client of a registry does.  Handles are numbered in the order in which they were
obtained. -/
inductive Op where
  | register (key : UInt32)
  | clone (handle : ℕ)
  | record (handle : ℕ) (t : Instant) (v : Traffic Float)
  | recordSent (handle : ℕ) (now : Instant) (bytes : UInt64)
  | recordReceived (handle : ℕ) (now : Instant) (bytes : UInt64)
  | snapshot (handle : ℕ)
  | unregister (key : UInt32)
  | collect

/-- The sample that an operation records, after the handle that it is recorded through. -/
def Op.sample? : Op → Option (ℕ × Instant × Traffic Float)
  | record handle t v => some (handle, t, v)
  | recordSent handle now bytes => some (handle, now, .ofSent (Channel.ofNat bytes.toNat))
  | recordReceived handle now bytes => some (handle, now, .ofReceived (Channel.ofNat bytes.toNat))
  | _ => none

/-- One of the registrations of a key; the era is how often the key had been taken out. -/
structure Registration where
  key : UInt32
  era : ℕ
deriving DecidableEq, Repr

/-! ### Reading a history

A history is a list of operations, the newest first. -/

/-- How often a key has been taken out. -/
def era (key : UInt32) : List Op → ℕ
  | [] => 0
  | .unregister k :: past => if k = key then era key past + 1 else era key past
  | _ :: past => era key past

/-- The registration that a handle of a key is obtained in. -/
def current (key : UInt32) (history : List Op) : Registration := ⟨key, era key history⟩

/-- The key has been registered and not taken out since. -/
def Registered (key : UInt32) : List Op → Prop
  | [] => False
  | .register k :: past => k = key ∨ Registered key past
  | .unregister k :: past => k ≠ key ∧ Registered key past
  | _ :: past => Registered key past

/-- The registration of each handle.  A clone belongs to the registration of its handle. -/
def grants : List Op → List Registration
  | [] => []
  | .register key :: past => grants past ++ [current key past]
  | .clone j :: past => grants past ++ (grants past)[j]?.toList
  | _ :: past => grants past

/-- The samples recorded through the handles of a registration, the oldest first. -/
def samples (g : Registration) : List Op → List (Instant × Traffic Float)
  | [] => []
  | op :: past =>
      match op.sample? with
      | some (j, s) => if (grants past)[j]? = some g then samples g past ++ [s] else samples g past
      | none => samples g past

/-- The registrations in the order in which they began. -/
def registrations : List Op → List Registration
  | [] => []
  | .register key :: past =>
      if current key past ∈ registrations past then registrations past
      else registrations past ++ [current key past]
  | _ :: past => registrations past

/-! ### What one operation changes -/

theorem samples_of_sample {op : Op} {j : ℕ} {s : Instant × Traffic Float}
    (h : op.sample? = some (j, s)) (g : Registration) (past : List Op) :
    samples g (op :: past) =
      if (grants past)[j]? = some g then samples g past ++ [s] else samples g past := by
  rw [samples, h]

theorem samples_of_none {op : Op} (h : op.sample? = none) (g : Registration) (past : List Op) :
    samples g (op :: past) = samples g past := by
  rw [samples, h]

theorem same_of_sample {op : Op} {x : ℕ × Instant × Traffic Float} (h : op.sample? = some x)
    (past : List Op) :
    grants (op :: past) = grants past ∧ registrations (op :: past) = registrations past ∧
      ∀ key, current key (op :: past) = current key past ∧
        (Registered key (op :: past) ↔ Registered key past) := by
  cases op with
  | record | recordSent | recordReceived => exact ⟨rfl, rfl, fun _ => ⟨rfl, Iff.rfl⟩⟩
  | _ => cases h

theorem registrations_extend (op : Op) (past : List Op) :
    registrations past <+: registrations (op :: past) := by
  cases op with
  | register key =>
      rw [registrations]
      split_ifs
      · exact List.prefix_rfl
      · exact List.prefix_append _ _
  | _ => exact List.prefix_rfl

theorem mem_registrations_register {g : Registration} {key : UInt32} {past : List Op} :
    g ∈ registrations (.register key :: past) ↔ g ∈ registrations past ∨ g = current key past := by
  rw [registrations]
  split_ifs with h
  · exact ⟨Or.inl, fun hg => hg.elim id fun hg => hg ▸ h⟩
  · rw [List.mem_append, List.mem_singleton]

theorem current_unregister_of_ne {k key : UInt32} {past : List Op} (h : k ≠ key) :
    current key (.unregister k :: past) = current key past := by
  rw [current, era, if_neg h, current]

theorem era_le_cons (key : UInt32) (op : Op) (past : List Op) :
    era key past ≤ era key (op :: past) := by
  cases op with
  | unregister k =>
      rw [era]
      split_ifs <;> omega
  | _ => exact Nat.le_refl _

theorem era_le_append (key : UInt32) (past : List Op) : ∀ later : List Op,
    era key past ≤ era key (later ++ past)
  | [] => Nat.le_refl _
  | op :: later => Nat.le_trans (era_le_append key past later) (era_le_cons key op (later ++ past))

/-! ### What every history keeps -/

theorem era_le : ∀ {history : List Op} {g : Registration}, g ∈ registrations history →
    g.era ≤ era g.key history
  | [], _, h => by cases h
  | op :: past, g, h => by
      have hold : g ∈ registrations past → g.era ≤ era g.key (op :: past) :=
        fun h => Nat.le_trans (era_le h) (era_le_cons g.key op past)
      cases op with
      | register key =>
          rcases mem_registrations_register.mp h with h | rfl
          · exact hold h
          · exact Nat.le_refl _
      | _ => exact hold h

theorem nodup_registrations : ∀ history : List Op, (registrations history).Nodup
  | [] => List.nodup_nil
  | op :: past => by
      have ih := nodup_registrations past
      cases op with
      | register key =>
          rw [registrations]
          split_ifs with h
          · exact ih
          · exact List.concat_eq_append ▸ ih.concat h
      | _ => exact ih

theorem mem_registrations_of_mem_grants : ∀ {history : List Op} {g : Registration},
    g ∈ grants history → g ∈ registrations history
  | [], _, h => by cases h
  | op :: past, g, h => by
      have hold : g ∈ grants past → g ∈ registrations (op :: past) :=
        fun h => (registrations_extend op past).mem (mem_registrations_of_mem_grants h)
      cases op with
      | register key =>
          rcases List.mem_append.mp h with h | h
          · exact hold h
          · exact mem_registrations_register.mpr (Or.inr (List.mem_singleton.mp h))
      | clone j =>
          rcases List.mem_append.mp h with h | h
          · exact hold h
          · exact hold (List.mem_of_getElem? (Option.mem_toList.mp h))
      | _ => exact hold h

/-- Once a key has been taken out, no handle from before belongs to a registration of it. -/
theorem current_not_mem_grants (key : UInt32) (later earlier : List Op) :
    current key (later ++ .unregister key :: earlier) ∉ grants earlier := by
  intro h
  have hold : era key (later ++ .unregister key :: earlier) ≤ era key earlier :=
    era_le (mem_registrations_of_mem_grants h)
  have hnew := era_le_append key (.unregister key :: earlier) later
  rw [era, if_pos rfl] at hnew
  omega

example : grants [.register 7, .unregister 7, .clone 0, .register 7] =
    [⟨7, 0⟩, ⟨7, 0⟩, ⟨7, 1⟩] := by decide

theorem registered_iff (key : UInt32) : ∀ history : List Op,
    Registered key history ↔ current key history ∈ registrations history
  | [] => by simp [Registered, registrations]
  | op :: past => by
      have ih := registered_iff key past
      cases op with
      | register k =>
          have hcurrent : current key past = current k past ↔ k = key :=
            ⟨fun h => (congrArg Registration.key h).symm, fun h => by rw [h]⟩
          rw [Registered, mem_registrations_register, ih, or_comm]
          exact or_congr Iff.rfl hcurrent.symm
      | unregister k =>
          by_cases hk : k = key
          · have hended : current key (.unregister k :: past) ∉ registrations past := by
              intro h
              rw [current, era, if_pos hk] at h
              exact Nat.not_succ_le_self _ (era_le h)
            exact ⟨fun h => absurd hk h.1, fun h => absurd h hended⟩
          · rw [Registered, current_unregister_of_ne hk]
            exact ⟨fun h => ih.mp h.2, fun h => ⟨hk, ih.mpr h⟩⟩
      | _ => exact ih

theorem samples_eq_nil : ∀ {history : List Op} {g : Registration}, g ∉ registrations history →
    samples g history = []
  | [], _, _ => rfl
  | op :: past, g, h => by
      have hpast : g ∉ registrations past := fun hg => h ((registrations_extend op past).mem hg)
      have ih := samples_eq_nil hpast
      cases hop : op.sample? with
      | none => rw [samples_of_none hop, ih]
      | some x =>
          have hgrant : (grants past)[x.1]? ≠ some g :=
            fun hg => hpast (mem_registrations_of_mem_grants (List.mem_of_getElem? hg))
          rw [samples_of_sample hop, if_neg hgrant, ih]

theorem exists_of_mem_samples {g : Registration} {s : Instant × Traffic Float} :
    ∀ {history : List Op}, s ∈ samples g history → ∃ op ∈ history, ∃ j, op.sample? = some (j, s)
  | [], h => by cases h
  | op :: past, h => by
      have hpast (h : s ∈ samples g past) : ∃ op' ∈ op :: past, ∃ j, op'.sample? = some (j, s) := by
        obtain ⟨op', hop', hsample⟩ := exists_of_mem_samples h
        exact ⟨op', List.mem_cons_of_mem op hop', hsample⟩
      cases hop : op.sample? with
      | none => exact hpast (samples_of_none hop g past ▸ h)
      | some x =>
          rw [samples_of_sample hop] at h
          split_ifs at h
          · rcases List.mem_append.mp h with h | h
            · exact hpast h
            · rw [List.mem_singleton.mp h]
              exact ⟨op, List.mem_cons_self, x.1, hop⟩
          · exact hpast h

end RouteTraffic.Registry
