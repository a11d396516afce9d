import RouteTraffic.Selection
import Mathlib.Data.List.Nodup

/-! # Routes by their numbers

A route answers to its own key, or else to its position.  Keys and positions are numbers of one
space, and of the routes that answer to a number the first is found (`findRoute?_eq_some_iff`).

Where keys are distinct, two routes answer to the same number only if one of them has the position
of the other as its key (`selectionKey_eq_iff`).  Then the earlier one hides the other.  A route
that is not hidden is shown by its number, and the number of a hidden one shows the route that hides
it (`select_selectionKey`). -/

namespace RouteTraffic

/-- What is shown of the route at a position. -/
def Route.shown (r : Route) (i : ℕ) : SelectedSeries :=
  match r.stats with
  | some s => ⟨r.label i, s⟩
  | none => ⟨Selection.noDataLabel, .empty⟩

/-- The route `q` at position `j` comes before the route `r` at position `i` and answers to the
number of that one: one of the two has the other's position as its key. -/
def Hides (q : Route) (j : ℕ) (r : Route) (i : ℕ) : Prop :=
  j < i ∧ (q.key = some (UInt32.ofNat i) ∧ r.key = none ∨
    q.key = none ∧ r.key = some (UInt32.ofNat j))

variable {routes : List Route} {p q r : Route} {i j k : ℕ} {key : UInt32}

/-! ### The first route that answers -/

/-- The route that is found answers to the number, and none before it does. -/
theorem findRoute?_eq_some_iff :
    findRoute? routes key = some (r, i) ↔ routes[i]? = some r ∧ r.selectionKey i = key ∧
      ∀ j q, j < i → routes[j]? = some q → q.selectionKey j ≠ key := by
  unfold findRoute?
  rw [List.find?_eq_some_iff_getElem]
  simp only [List.length_zipIdx, List.getElem_zipIdx, Nat.zero_add, Prod.mk.injEq, beq_iff_eq,
    Bool.not_eq_true', beq_eq_false_iff_ne]
  constructor
  · rintro ⟨hkey, i, hi, ⟨rfl, rfl⟩, hbefore⟩
    refine ⟨List.getElem?_eq_getElem hi, hkey, fun j q hj hq => ?_⟩
    obtain ⟨-, rfl⟩ := List.getElem?_eq_some_iff.mp hq
    exact hbefore j hj
  · rintro ⟨hr, hkey, hbefore⟩
    obtain ⟨hi, rfl⟩ := List.getElem?_eq_some_iff.mp hr
    refine ⟨hkey, i, hi, ⟨rfl, rfl⟩, fun j hj => ?_⟩
    exact hbefore j _ hj (List.getElem?_eq_getElem (Nat.lt_trans hj hi))

theorem select_of_findRoute? (h : findRoute? routes key = some (r, i)) :
    select routes (.route key) = r.shown i := by
  simp only [select, h]
  rfl

/-! ### Routes that answer to the same number -/

theorem key_ne_of_lt (hkeys : (routes.filterMap (·.key)).Nodup) (hj : routes[j]? = some q)
    (hi : routes[i]? = some r) (hlt : j < i) (hq : q.key = some key) : r.key ≠ some key := by
  obtain ⟨hjlen, rfl⟩ := List.getElem?_eq_some_iff.mp hj
  obtain ⟨hilen, rfl⟩ := List.getElem?_eq_some_iff.mp hi
  intro hr
  have hapart := List.pairwise_iff_getElem.mp (List.pairwise_filterMap.mp hkeys)
  exact hapart j i hjlen hilen hlt key hq key hr rfl

theorem ofNat_ne_of_lt (hlength : routes.length ≤ UInt32.size) (hi : routes[i]? = some r)
    (hlt : j < i) : UInt32.ofNat j ≠ UInt32.ofNat i := by
  have hsize : i < UInt32.size :=
    Nat.lt_of_lt_of_le (List.getElem?_eq_some_iff.mp hi).1 hlength
  intro heq
  have hnat := congrArg UInt32.toNat heq
  rw [UInt32.toNat_ofNat_of_lt' (Nat.lt_trans hlt hsize), UInt32.toNat_ofNat_of_lt' hsize] at hnat
  exact Nat.ne_of_lt hlt hnat

section numbered
variable (hlength : routes.length ≤ UInt32.size) (hkeys : (routes.filterMap (·.key)).Nodup)
include hlength hkeys

/-- Where keys are distinct, an earlier route answers to the number of another only if it hides
it. -/
theorem selectionKey_eq_iff (hj : routes[j]? = some q) (hi : routes[i]? = some r) (hlt : j < i) :
    q.selectionKey j = r.selectionKey i ↔ Hides q j r i := by
  unfold Hides Route.selectionKey
  cases hq : q.key with
  | none =>
      cases hr : r.key with
      | none => simpa using ofNat_ne_of_lt hlength hi hlt
      | some b => simp [hlt, eq_comm]
  | some a =>
      cases hr : r.key with
      | none => simp [hlt]
      | some b =>
          have hne : a ≠ b := by
            rintro rfl
            exact key_ne_of_lt hkeys hj hi hlt hq hr
          simpa using hne

theorem findRoute?_selectionKey_iff (hi : routes[i]? = some r) :
    findRoute? routes (r.selectionKey i) = some (r, i) ↔
      ∀ j q, routes[j]? = some q → ¬Hides q j r i := by
  rw [findRoute?_eq_some_iff]
  constructor
  · rintro ⟨-, -, hbefore⟩ j q hj hhides
    exact hbefore j q hhides.1 hj ((selectionKey_eq_iff hlength hkeys hj hi hhides.1).mpr hhides)
  · intro hfree
    refine ⟨hi, rfl, fun j q hlt hj heq => hfree j q hj ?_⟩
    exact (selectionKey_eq_iff hlength hkeys hj hi hlt).mp heq

theorem not_hides_of_hides (hk : routes[k]? = some p) (hi : routes[i]? = some r)
    (hhides : Hides q j r i) : ¬Hides p k q j := by
  rintro ⟨hkj, hcase⟩
  obtain ⟨hji, ⟨hq, -⟩ | ⟨hq, hr⟩⟩ := hhides
  · -- the position of the last route is the key of the second, and that of the first is not
    rcases hcase with ⟨-, hnone⟩ | ⟨-, hkey⟩
    · rw [hq] at hnone
      cases hnone
    · rw [hq, Option.some.injEq] at hkey
      exact ofNat_ne_of_lt hlength hi (Nat.lt_trans hkj hji) hkey.symm
  · -- the position of the second route is the key of the last, and no other has this key
    rcases hcase with ⟨hp, -⟩ | ⟨-, hkey⟩
    · exact key_ne_of_lt hkeys hk hi (Nat.lt_trans hkj hji) hp hr
    · rw [hq] at hkey
      cases hkey

theorem findRoute?_of_hides (hj : routes[j]? = some q) (hi : routes[i]? = some r)
    (hhides : Hides q j r i) : findRoute? routes (r.selectionKey i) = some (q, j) := by
  rw [← (selectionKey_eq_iff hlength hkeys hj hi hhides.1).mpr hhides,
    findRoute?_selectionKey_iff hlength hkeys hj]
  exact fun k p hk => not_hides_of_hides hlength hkeys hk hi hhides

end numbered

/-! ### Selecting a route by its number -/

/-- **A route is shown by its number unless another hides it.**  In a list of routes with distinct
keys, the number of a route that is not hidden shows this route with the label of its position, or
that there is no data; the number of a hidden route shows the route that hides it. -/
theorem select_selectionKey (hlength : routes.length ≤ UInt32.size)
    (hkeys : (routes.filterMap (·.key)).Nodup) (hi : routes[i]? = some r) :
    ((∀ j q, routes[j]? = some q → ¬Hides q j r i) →
        select routes (.route (r.selectionKey i)) = r.shown i) ∧
      ∀ j q, routes[j]? = some q → Hides q j r i →
        select routes (.route (r.selectionKey i)) = q.shown j := by
  constructor
  · intro hfree
    exact select_of_findRoute? ((findRoute?_selectionKey_iff hlength hkeys hi).mpr hfree)
  · intro j q hj hhides
    exact select_of_findRoute? (findRoute?_of_hides hlength hkeys hj hi hhides)

/-- The first route has the position of the third as its key: it hides that one and no other. -/
theorem select_selectionKey_third_hidden :
    let web : Route := { key := some 2, domain := some "web.example.com", stats := some .empty }
    let ssh : Route := { kind := some "tcp", port := some 22, stats := some ⟨[], ⟨8.0, 1.0⟩⟩ }
    let mail : Route := { domain := some "mail.example.com", stats := some ⟨[], ⟨0.0, 3.0⟩⟩ }
    let routes := [web, ssh, mail]
    routes.length ≤ UInt32.size ∧ (routes.filterMap (·.key)).Nodup ∧
      select routes (.route (ssh.selectionKey 1)) = ⟨"TCP:22", ⟨[], ⟨8.0, 1.0⟩⟩⟩ ∧
      select routes (.route (mail.selectionKey 2)) = ⟨"web.example.com", .empty⟩ := by
  intro web ssh mail routes
  have hlength : routes.length ≤ UInt32.size := by decide
  have hkeys : (routes.filterMap (·.key)).Nodup := by decide
  have hssh := select_selectionKey hlength hkeys (i := 1) (r := ssh) rfl
  have hmail := select_selectionKey hlength hkeys (i := 2) (r := mail) rfl
  refine ⟨hlength, hkeys, (hssh.1 ?_).trans rfl, (hmail.2 0 web rfl ?_).trans rfl⟩
  · rintro j q hj ⟨hlt, hcase⟩
    obtain rfl : j = 0 := by omega
    obtain rfl : web = q := Option.some.inj hj
    rcases hcase with ⟨hkey, -⟩ | ⟨-, hkey⟩
    · exact absurd hkey (by decide)
    · exact absurd hkey (by decide)
  · exact ⟨by decide, Or.inl ⟨rfl, rfl⟩⟩

/-- A route without a key is not shown by its position where that is the key of another. -/
theorem select_selectionKey_other_route :
    let web : Route :=
      { key := some 1, domain := some "web.example.com", stats := some ⟨[], ⟨1.0, 1.0⟩⟩ }
    let ssh : Route := { domain := some "ssh.example.com", stats := some ⟨[], ⟨2.0, 2.0⟩⟩ }
    let routes := [web, ssh]
    routes.length ≤ UInt32.size ∧ (routes.filterMap (·.key)).Nodup ∧ routes[1]? = some ssh ∧
      select routes (.route (ssh.selectionKey 1)) ≠ ssh.shown 1 := by
  intro web ssh routes
  refine ⟨by decide, by decide, rfl, fun heq => ?_⟩
  exact absurd (congrArg SelectedSeries.label heq) (by decide)

end RouteTraffic
