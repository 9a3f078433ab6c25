import Mathlib.Data.List.Induction
import Mathlib.Logic.Equiv.Basic

/-! # Repetition, partial maps, positions and first occurrences

What a repeated step preserves, and what a fold meets on its way (`Along`); lists on which a
partial map has all its values; the last element that a predicate holds of
(`find?_reverse_eq_some_iff`); lists in the order of a key; the positions at which a predicate
holds (`positionsWhere`), and those at which the elements of a list stand in a reordered one
(`exists_perm_getElem?`); and the elements of a list whose key no earlier element has, each with its
position (`firsts`).  The definition of these says which elements
they are; `firsts_concat` says what one more element at the end changes, for inductions over the
part of a list that a fold has seen. -/

namespace NodeLink

/-! ### Repetition and partial maps -/

theorem repeat_preserves {σ : Type} {f : σ → σ} {P : σ → Prop} (hstep : ∀ s, P s → P (f s))
    (n : Nat) {s : σ} (hs : P s) : P (Nat.repeat f n s) := by
  induction n with
  | zero => exact hs
  | succ n ih => exact hstep _ ih

theorem repeat_related {σ τ : Type} {f : σ → σ} {g : τ → τ} {R : σ → τ → Prop}
    (hstep : ∀ s t, R s t → R (f s) (g t)) (n : Nat) {s : σ} {t : τ} (h : R s t) :
    R (Nat.repeat f n s) (Nat.repeat g n t) := by
  induction n with
  | zero => exact h
  | succ n ih => exact hstep _ _ ih

theorem foldlM_preserves {σ ι : Type} {f : σ → ι → Option σ} {P : σ → Prop}
    (hstep : ∀ {s t : σ} {x : ι}, P s → f s x = some t → P t) : ∀ (xs : List ι) {s t : σ},
      P s → xs.foldlM f s = some t → P t
  | [], _, _, hs, h => Option.some.inj h ▸ hs
  | x :: xs, _, _, hs, h => by
      rw [List.foldlM_cons] at h
      obtain ⟨next, hnext, hrest⟩ := Option.bind_eq_some_iff.mp h
      exact foldlM_preserves hstep xs (hstep hs hnext) hrest

/-- Every item of a list is met by a fold in a state that goes with it. -/
def Along {σ ι : Type} (P : σ → ι → Prop) (f : σ → ι → σ) : σ → List ι → Prop
  | _, [] => True
  | s, x :: xs => P s x ∧ Along P f (f s x) xs

/-- If all states of an invariant go with the items, and steps preserve it, the fold meets its
items in such states only. -/
theorem along_of_invariant {σ ι : Type} {P : σ → ι → Prop} {f : σ → ι → σ} {I : σ → Prop}
    (hstep : ∀ s x, I s → I (f s x)) : ∀ (xs : List ι) {s : σ}, I s →
      (∀ s, I s → ∀ x ∈ xs, P s x) → Along P f s xs
  | [], _, _, _ => trivial
  | x :: xs, s, hs, h => by
      have htail : ∀ s, I s → ∀ y ∈ xs, P s y :=
        fun s hs y hy => h s hs y (List.mem_cons_of_mem x hy)
      exact ⟨h s hs x List.mem_cons_self,
        along_of_invariant hstep xs (hstep s x hs) htail⟩

/-- A loop that goes through numbers in order passes through a state for each of them. -/
theorem foldlM_range' {σ : Type} {f : σ → Nat → Option σ} {s : Nat → σ} : ∀ (n start : Nat),
    (∀ k, start ≤ k → k < start + n → f (s k) k = some (s (k + 1))) →
      (List.range' start n).foldlM f (s start) = some (s (start + n))
  | 0, _, _ => rfl
  | n + 1, start, h => by
      have hrest := foldlM_range' n (start + 1) fun k hlow hhigh => h k (by omega) (by omega)
      rw [List.range'_succ, List.foldlM_cons, h start (Nat.le_refl start) (by omega),
        show start + (n + 1) = start + 1 + n by omega]
      exact hrest

theorem exists_mapM {β γ : Type} {f : β → Option γ} : ∀ (xs : List β),
    (∀ x ∈ xs, ∃ y, f x = some y) → ∃ ys, xs.mapM f = some ys ∧ ys.length = xs.length
  | [], _ => ⟨[], rfl, rfl⟩
  | x :: xs, h => by
      obtain ⟨y, hy⟩ := h x List.mem_cons_self
      obtain ⟨ys, hys, hlen⟩ := exists_mapM xs fun z hz => h z (List.mem_cons_of_mem x hz)
      refine ⟨y :: ys, ?_, congrArg (· + 1) hlen⟩
      rw [List.mapM_cons, hy, hys]
      rfl

theorem mapM_eq_some_self {β : Type} {f : β → Option β} : ∀ {xs : List β},
    (∀ x ∈ xs, f x = some x) → xs.mapM f = some xs
  | [], _ => rfl
  | x :: xs, h => by
      have hrest := mapM_eq_some_self fun y hy => h y (List.mem_cons_of_mem x hy)
      rw [List.mapM_cons, h x List.mem_cons_self, hrest]
      rfl

theorem getElem?_mapM {β γ : Type} {f : β → Option γ} : ∀ {xs : List β} {ys : List γ},
    xs.mapM f = some ys → ∀ {k : Nat} {x : β}, xs[k]? = some x → ys[k]? = f x
  | [], _, _, _, _, hx => by cases hx
  | x :: xs, ys, h, k, z, hz => by
      rw [List.mapM_cons] at h
      obtain ⟨first, hfirst, hrest⟩ := Option.bind_eq_some_iff.mp h
      obtain ⟨rest, hmap, heq⟩ := Option.bind_eq_some_iff.mp hrest
      obtain rfl : first :: rest = ys := Option.some.inj heq
      cases k with
      | zero =>
          obtain rfl : x = z := Option.some.inj hz
          exact hfirst.symm
      | succ k => exact getElem?_mapM hmap hz

theorem exists_of_mem_mapM {β γ : Type} {f : β → Option γ} : ∀ (xs : List β) {ys : List γ},
    xs.mapM f = some ys → ∀ y ∈ ys, ∃ x ∈ xs, f x = some y
  | [], ys, h, y, hy => by
      obtain rfl : [] = ys := Option.some.inj h
      exact absurd hy List.not_mem_nil
  | x :: xs, ys, h, y, hy => by
      rw [List.mapM_cons] at h
      obtain ⟨first, hfirst, hrest⟩ := Option.bind_eq_some_iff.mp h
      obtain ⟨rest, hmap, heq⟩ := Option.bind_eq_some_iff.mp hrest
      obtain rfl : first :: rest = ys := Option.some.inj heq
      rcases List.mem_cons.mp hy with rfl | hy
      · exact ⟨x, List.mem_cons_self, hfirst⟩
      · obtain ⟨z, hz, hfz⟩ := exists_of_mem_mapM xs hmap y hy
        exact ⟨z, List.mem_cons_of_mem x hz, hfz⟩

theorem map_eq_ok_iff {ε β γ : Type} {f : β → γ} {x : Except ε β} {z : γ} :
    x.map f = .ok z ↔ ∃ y, x = .ok y ∧ z = f y := by
  cases x with
  | error e => exact iff_of_false (fun h => by cases h) (fun ⟨_, h, _⟩ => by cases h)
  | ok y =>
      constructor
      · intro h
        exact ⟨y, rfl, (Except.ok.inj h).symm⟩
      · rintro ⟨y', hy, rfl⟩
        cases hy
        rfl

theorem zip_map_range {β γ : Type} (point : Nat → γ) (xs : List β) :
    xs.zip ((List.range xs.length).map point) = xs.zipIdx.map fun x => (x.1, point x.2) := by
  rw [List.zipIdx_eq_zip_range', ← List.range_eq_range', List.zip_map_right]
  rfl

/-! ### Lists in order -/

theorem getElem?_concat_eq_some_iff {β : Type} {xs : List β} {x y : β} {i : Nat} :
    (xs ++ [x])[i]? = some y ↔ xs[i]? = some y ∨ i = xs.length ∧ x = y := by
  rcases Nat.lt_trichotomy i xs.length with hlt | rfl | hgt
  · simp [List.getElem?_append_left hlt, Nat.ne_of_lt hlt]
  · simp
  · simp [List.getElem?_append_right (Nat.le_of_lt hgt), Nat.ne_of_gt hgt,
      List.getElem?_eq_none (Nat.le_of_lt hgt), Nat.sub_ne_zero_of_lt hgt]

/-- A search from the end finds the last element of its kind. -/
theorem find?_reverse_eq_some_iff {β : Type} {p : β → Bool} {xs : List β} {x : β} :
    xs.reverse.find? p = some x ↔
      p x = true ∧ ∃ before after, xs = before ++ x :: after ∧ ∀ y ∈ after, p y = false := by
  rw [List.find?_eq_some_iff_append]
  refine and_congr_right fun _ => ⟨?_, ?_⟩
  · rintro ⟨after, before, hxs, hafter⟩
    refine ⟨before.reverse, after.reverse, ?_, fun y hy => ?_⟩
    · rw [← List.reverse_reverse xs, hxs]
      simp
    · simpa using hafter y (List.mem_reverse.mp hy)
  · rintro ⟨before, after, rfl, hafter⟩
    refine ⟨after.reverse, before.reverse, by simp, fun y hy => ?_⟩
    simpa using hafter y (List.mem_reverse.mp hy)

/-- Of two elements of a list in order one comes before the other, unless they are the same. -/
theorem rel_or_rel_of_pairwise {β : Type} {R : β → β → Prop} {xs : List β} (h : xs.Pairwise R)
    {a b : β} (ha : a ∈ xs) (hb : b ∈ xs) : a = b ∨ R a b ∨ R b a := by
  obtain ⟨i, hi, rfl⟩ := List.getElem_of_mem ha
  obtain ⟨j, hj, rfl⟩ := List.getElem_of_mem hb
  rw [List.pairwise_iff_getElem] at h
  rcases Nat.lt_trichotomy i j with hlt | rfl | hlt
  · exact .inr (.inl (h i j hi hj hlt))
  · exact .inl rfl
  · exact .inr (.inr (h j i hj hi hlt))

theorem pairwise_mergeSort_key {β : Type} (key : β → Nat) (xs : List β) :
    (xs.mergeSort fun a b => key a ≤ key b).Pairwise fun a b => key a ≤ key b := by
  have hle : (xs.mergeSort fun a b => key a ≤ key b).Pairwise
      fun a b => decide (key a ≤ key b) = true := by
    refine List.pairwise_mergeSort (fun a b c hab hbc => ?_) (fun a b => ?_) xs
    · rw [decide_eq_true_eq] at hab hbc ⊢
      exact Nat.le_trans hab hbc
    · rw [Bool.or_eq_true, decide_eq_true_eq, decide_eq_true_eq]
      exact Nat.le_total (key a) (key b)
  exact hle.imp of_decide_eq_true

/-! ### Positions -/

/-- A permutation of the positions after the first one. -/
def shiftPerm (f : Equiv.Perm Nat) : Equiv.Perm Nat where
  toFun
    | 0 => 0
    | i + 1 => f i + 1
  invFun
    | 0 => 0
    | i + 1 => f.symm i + 1
  left_inv := by rintro (_ | i) <;> simp
  right_inv := by rintro (_ | i) <;> simp

/-- Where the elements of a list stand in a reordered one. -/
theorem exists_perm_getElem? {β : Type} {xs ys : List β} (h : xs.Perm ys) :
    ∃ f : Equiv.Perm Nat, ∀ i : Nat, xs[i]? = ys[f i]? := by
  induction h with
  | nil => exact ⟨Equiv.refl Nat, fun _ => rfl⟩
  | cons x h ih =>
      obtain ⟨f, hf⟩ := ih
      refine ⟨shiftPerm f, fun i => ?_⟩
      cases i with
      | zero => rfl
      | succ i => exact hf i
  | swap x y xs =>
      refine ⟨Equiv.swap 0 1, fun i => ?_⟩
      match i with
      | 0 => rfl
      | 1 => rfl
      | i + 2 =>
          rw [Equiv.swap_apply_of_ne_of_ne (by omega) (by omega)]
          rfl
  | trans _ _ ih₁ ih₂ =>
      obtain ⟨f, hf⟩ := ih₁
      obtain ⟨g, hg⟩ := ih₂
      exact ⟨f.trans g, fun i => (hf i).trans (hg (f i))⟩

section Positions

variable {β : Type} (p : β → Bool) (xs : List β)

/-- The positions of the elements that a filter keeps. -/
def positionsWhere : List Nat := (xs.zipIdx.filter fun x => p x.1).map Prod.snd

theorem map_positionsWhere : (positionsWhere p xs).map (xs[·]?) = (xs.filter p).map some := by
  unfold positionsWhere
  conv_rhs => rw [← List.zipIdx_map_fst 0 xs]
  rw [List.map_map, List.filter_map, List.map_map]
  refine List.map_congr_left fun x hx => ?_
  exact List.mem_zipIdx_iff_getElem?.mp (List.mem_filter.mp hx).1

theorem mem_positionsWhere {i : Nat} :
    i ∈ positionsWhere p xs ↔ ∃ x, xs[i]? = some x ∧ p x = true := by
  unfold positionsWhere
  simp only [List.mem_map, List.mem_filter, Prod.exists, List.mem_zipIdx_iff_getElem?]
  constructor
  · rintro ⟨x, _, h, rfl⟩
    exact ⟨x, h⟩
  · rintro ⟨x, h⟩
    exact ⟨x, i, h, rfl⟩

theorem pairwise_positionsWhere : (positionsWhere p xs).Pairwise (· < ·) := by
  have hsub : (positionsWhere p xs).Sublist (xs.zipIdx.map Prod.snd) :=
    List.filter_sublist.map Prod.snd
  rw [List.zipIdx_map_snd] at hsub
  exact List.Pairwise.sublist hsub List.pairwise_lt_range'

end Positions

/-! ### First occurrences -/

variable {β κ : Type} [DecidableEq κ]

/-- The elements of a list whose key no earlier element has, with their positions. -/
def firsts (key : β → κ) (xs : List β) : List (β × Nat) :=
  xs.zipIdx.filter fun x => key x.1 ∉ (xs.take x.2).map key

theorem firsts_nil (key : β → κ) : firsts key [] = [] := rfl

/-- A last element is added if its key is new; nothing else changes. -/
theorem firsts_concat (key : β → κ) (xs : List β) (x : β) :
    firsts key (xs ++ [x]) =
      firsts key xs ++ if key x ∈ xs.map key then [] else [(x, xs.length)] := by
  unfold firsts
  rw [List.zipIdx_append, List.filter_append]
  congr 1
  · refine List.filter_congr fun y hy => ?_
    have hlt : y.2 < xs.length := by
      have := List.snd_lt_of_mem_zipIdx hy
      omega
    rw [List.take_append_of_le_length (by omega)]
  · have htake : (xs ++ [x]).take xs.length = xs := List.take_left
    rw [Nat.zero_add, List.zipIdx_singleton]
    by_cases hx : key x ∈ xs.map key
    · rw [if_pos hx, List.filter_cons_of_neg (by simpa [htake] using hx)]
      rfl
    · rw [if_neg hx, List.filter_cons_of_pos (by simpa [htake] using hx)]
      rfl

theorem mem_keys_firsts {key : β → κ} {k : κ} (xs : List β) :
    k ∈ (firsts key xs).map (fun x => key x.1) ↔ k ∈ xs.map key := by
  induction xs using List.reverseRecOn with
  | nil => exact Iff.rfl
  | append_singleton xs x ih =>
      rw [firsts_concat, List.map_append, List.mem_append, ih, List.map_append, List.mem_append]
      by_cases hx : key x ∈ xs.map key
      · rw [if_pos hx]
        constructor
        · rintro (h | h)
          · exact Or.inl h
          · cases h
        · rintro (h | h)
          · exact Or.inl h
          · exact Or.inl (List.mem_singleton.mp h ▸ hx)
      · rw [if_neg hx]
        rfl

theorem nodup_keys_firsts {key : β → κ} (xs : List β) :
    ((firsts key xs).map fun x => key x.1).Nodup := by
  induction xs using List.reverseRecOn with
  | nil => exact List.nodup_nil
  | append_singleton xs x ih =>
      rw [firsts_concat]
      by_cases hx : key x ∈ xs.map key
      · rwa [if_pos hx, List.append_nil]
      · rw [if_neg hx, List.map_append, List.map_singleton]
        refine List.nodup_append.mpr ⟨ih, List.pairwise_singleton _ _, fun k hk k' hk' heq => hx ?_⟩
        obtain rfl : k' = key x := List.mem_singleton.mp hk'
        exact heq ▸ (mem_keys_firsts xs).mp hk

end NodeLink
