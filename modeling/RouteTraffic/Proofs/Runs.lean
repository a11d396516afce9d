import Mathlib.Data.List.SplitBy
import Mathlib.Data.List.TakeWhile
import Mathlib.Order.Defs.PartialOrder

/-! # Runs of equal keys

A list split where the key changes: the first run is what has the key of the first member, and the
rest is split in the same way (`splitBy_cons_key`).  Where keys never decrease, those of a later run
are greater (`splitBy_key_lt`). -/

namespace RouteTraffic

section
variable {β γ : Type} [DecidableEq γ] (key : β → γ)

theorem key_ne_of_dropWhile {x y : β} {rest : List β}
    (h : y ∈ (rest.dropWhile fun z => key z = key x).head?) : key x ≠ key y := by
  have hnot := List.head?_dropWhile_not (fun z => decide (key z = key x)) rest
  rw [Option.mem_def.mp h] at hnot
  exact Ne.symm (of_decide_eq_false hnot)

theorem splitBy_cons_key (x : β) (rest : List β) :
    (x :: rest).splitBy (fun a b => key a = key b) =
      (x :: rest.takeWhile fun y => key y = key x) ::
        (rest.dropWhile fun y => key y = key x).splitBy fun a b => key a = key b := by
  have hrun : ∀ y ∈ x :: rest.takeWhile (fun y => key y = key x), key y = key x := by
    refine List.forall_mem_cons.mpr ⟨rfl, fun y hy => ?_⟩
    simpa using List.mem_takeWhile_imp hy
  conv_lhs =>
    rw [← List.takeWhile_append_dropWhile (p := fun y => decide (key y = key x)) (l := rest),
      ← List.cons_append]
  rw [List.splitBy_append, List.splitBy_of_isChain (List.cons_ne_nil _ _)]
  · rfl
  · refine (List.pairwise_of_forall_mem_list fun y hy z hz => ?_).isChain
    rw [decide_eq_true_iff, hrun y hy, hrun z hz]
  · intro y hy z hz
    rw [decide_eq_false_iff_not, hrun y (List.mem_of_getLast? hy)]
    exact key_ne_of_dropWhile key hz

theorem key_eq_of_mem_splitBy {l run : List β}
    (hrun : run ∈ l.splitBy fun a b => key a = key b) {x y : β} (hx : x ∈ run) (hy : y ∈ run) :
    key x = key y := by
  have hchain : run.IsChain fun a b => key a = key b := by
    simpa using List.isChain_of_mem_splitBy hrun
  have htrans : IsTrans β fun a b => key a = key b := ⟨fun _ _ _ => Eq.trans⟩
  have hsymm : Std.Symm fun a b => key a = key b := ⟨fun _ _ => Eq.symm⟩
  exact List.Pairwise.forall_of_forall (R := fun a b => key a = key b) (fun _ _ => rfl)
    hchain.pairwise hx hy

/-! ### Keys that never decrease -/

variable [PartialOrder γ]

theorem key_lt_of_mem_dropWhile {x y : β} {rest : List β}
    (h : (x :: rest).Pairwise fun a b => key a ≤ key b)
    (hy : y ∈ rest.dropWhile fun z => key z = key x) : key x < key y := by
  obtain ⟨hx, hrest⟩ := List.pairwise_cons.mp h
  have hpast := hrest.sublist (List.dropWhile_sublist fun z => key z = key x)
  cases hdrop : rest.dropWhile fun z => key z = key x with
  | nil => simp [hdrop] at hy
  | cons z zs =>
      rw [hdrop] at hy hpast
      have hne : key x ≠ key z := key_ne_of_dropWhile key (by rw [hdrop]; rfl)
      have hz : z ∈ rest := List.dropWhile_subset _ (hdrop ▸ List.mem_cons_self)
      have hlt : key x < key z := lt_of_le_of_ne (hx z hz) hne
      rcases List.mem_cons.mp hy with rfl | hy
      · exact hlt
      · exact hlt.trans_le (List.rel_of_pairwise_cons hpast hy)

theorem splitBy_key_lt : ∀ {l : List β}, (l.Pairwise fun a b => key a ≤ key b) →
    (l.splitBy fun a b => key a = key b).Pairwise fun run later =>
      ∀ x ∈ run, ∀ y ∈ later, key x < key y
  | [], _ => List.Pairwise.nil
  | x :: rest, h => by
      have hshort := (List.dropWhile_sublist (l := rest) fun y => key y = key x).length_le
      have hpast : (rest.dropWhile fun y => key y = key x).Pairwise fun a b => key a ≤ key b :=
        (List.pairwise_cons.mp h).2.sublist (List.dropWhile_sublist _)
      rw [splitBy_cons_key]
      refine List.pairwise_cons.mpr ⟨fun later hlater y hy z hz => ?_, splitBy_key_lt hpast⟩
      have hkey : key y = key x := by
        rcases List.mem_cons.mp hy with rfl | hy
        · rfl
        · simpa using List.mem_takeWhile_imp hy
      have hzpast : z ∈ rest.dropWhile fun y => key y = key x := by
        rw [← List.flatten_splitBy (fun a b => key a = key b) (rest.dropWhile _)]
        exact List.mem_flatten.mpr ⟨later, hlater, hz⟩
      rw [hkey]
      exact key_lt_of_mem_dropWhile key h hzpast
  termination_by l => l.length
  decreasing_by
    simp only [List.length_cons]
    omega

end

end RouteTraffic
