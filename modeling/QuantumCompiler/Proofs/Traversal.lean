import Mathlib.Data.List.Forall2

/-!
# Working through a list until something fails

`List.mapM` in `Except` treats the items of a list in order and stops at the
first that fails. Either every item has a result, or there is a least position
whose item fails, and its fault is the outcome.

* `mapM_eq_ok_iff` — all items succeed;
* `mapM_eq_error_iff` — the item at the least failing position decides.
-/

namespace QuantumCompiler

variable {α β ε : Type}

theorem bind_eq_ok_iff {x : Except ε α} {f : α → Except ε β} {b : β} :
    x >>= f = .ok b ↔ ∃ a, x = .ok a ∧ f a = .ok b := by
  cases x with
  | error e => exact ⟨fun h => (by cases h), fun ⟨a, h, _⟩ => (by cases h)⟩
  | ok a => exact ⟨fun h => ⟨a, rfl, h⟩, fun ⟨a', h, h'⟩ => (Except.ok.inj h) ▸ h'⟩

theorem bind_eq_error_iff {x : Except ε α} {f : α → Except ε β} {e : ε} :
    x >>= f = .error e ↔ x = .error e ∨ ∃ a, x = .ok a ∧ f a = .error e := by
  cases x with
  | error e' =>
    constructor
    · intro h
      exact Or.inl (congrArg Except.error (Except.error.inj h))
    · rintro (h | ⟨a, h, _⟩)
      · exact congrArg Except.error (Except.error.inj h)
      · cases h
  | ok a =>
    constructor
    · intro h
      exact Or.inr ⟨a, rfl, h⟩
    · rintro (h | ⟨a', h, h'⟩)
      · cases h
      · exact (Except.ok.inj h) ▸ h'

theorem map_eq_error_iff {x : Except ε α} {f : α → β} {e : ε} :
    x.map f = .error e ↔ x = .error e := by
  cases x with
  | error e' => simp [Except.map]
  | ok a => simp [Except.map]

/-- All items succeed, and the results are in the order of the items. -/
theorem mapM_eq_ok_iff {f : α → Except ε β} {l : List α} {bs : List β} :
    l.mapM f = .ok bs ↔ List.Forall₂ (fun a b => f a = .ok b) l bs := by
  induction l generalizing bs with
  | nil =>
    rw [List.mapM_nil, List.forall₂_nil_left_iff]
    exact ⟨fun h => (Except.ok.inj h).symm, fun h => h ▸ rfl⟩
  | cons a l ih =>
    rw [List.mapM_cons, bind_eq_ok_iff, List.forall₂_cons_left_iff]
    constructor
    · rintro ⟨b, hb, h⟩
      obtain ⟨bs', hbs', h⟩ := bind_eq_ok_iff.mp h
      exact ⟨b, bs', hb, ih.mp hbs', (Except.ok.inj h).symm⟩
    · rintro ⟨b, bs', hb, hbs', rfl⟩
      exact ⟨b, hb, bind_eq_ok_iff.mpr ⟨bs', ih.mpr hbs', rfl⟩⟩

/-- Faults can be renamed before or after. -/
theorem mapM_mapError {ε' : Type} (f : α → Except ε β) (h : ε → ε') (l : List α) :
    l.mapM (fun a => (f a).mapError h) = (l.mapM f).mapError h := by
  induction l with
  | nil => rfl
  | cons a l ih =>
    rw [List.mapM_cons, List.mapM_cons, ih]
    cases f a with
    | error e => rfl
    | ok b =>
      cases l.mapM f with
      | error e => rfl
      | ok bs => rfl

theorem mapM_eq_some_iff {f : α → Option β} {l : List α} {bs : List β} :
    l.mapM f = some bs ↔ List.Forall₂ (fun a b => f a = some b) l bs := by
  induction l generalizing bs with
  | nil => simp [eq_comm]
  | cons a l ih =>
    rw [List.mapM_cons, List.forall₂_cons_left_iff]
    constructor
    · intro h
      obtain ⟨b, hb, h⟩ := Option.bind_eq_some_iff.mp h
      obtain ⟨bs', hbs', h⟩ := Option.bind_eq_some_iff.mp h
      exact ⟨b, bs', hb, ih.mp hbs', (Option.some.inj h).symm⟩
    · rintro ⟨b, bs', hb, hbs', rfl⟩
      exact Option.bind_eq_some_iff.mpr
        ⟨b, hb, Option.bind_eq_some_iff.mpr ⟨bs', ih.mpr hbs', rfl⟩⟩

theorem mapM_optionMap {γ : Type} (f : α → Option β) (h : β → γ) (l : List α) :
    l.mapM (fun a => (f a).map h) = (l.mapM f).map (List.map h) := by
  induction l with
  | nil => rfl
  | cons a l ih =>
    rw [List.mapM_cons, List.mapM_cons, ih]
    cases f a with
    | none => rfl
    | some b =>
      cases l.mapM f with
      | none => rfl
      | some bs => rfl

theorem exists_mapM_eq_some {f : α → Option β} {l : List α} (h : ∀ a ∈ l, ∃ b, f a = some b) :
    ∃ bs, l.mapM f = some bs := by
  induction l with
  | nil => exact ⟨[], rfl⟩
  | cons a l ih =>
    obtain ⟨⟨b, hb⟩, hl⟩ := List.forall_mem_cons.mp h
    obtain ⟨bs, hbs⟩ := ih hl
    exact ⟨b :: bs, by rw [List.mapM_cons, hb, hbs]; rfl⟩

/-- Items that are treated along with their positions succeed in order as well. -/
theorem forall₂_of_mapM_zipIdx {f : α × Nat → Except ε β} {l : List α} {bs : List β}
    (h : l.zipIdx.mapM f = .ok bs) :
    List.Forall₂ (fun a b => ∃ index, f (a, index) = .ok b) l bs := by
  have hall := mapM_eq_ok_iff.mp h
  have hmap : List.Forall₂ (fun a b => ∃ index, f (a, index) = .ok b) (l.zipIdx.map Prod.fst) bs := by
    rw [List.forall₂_map_left_iff]
    exact hall.imp fun located b hb => ⟨located.2, hb⟩
  rwa [List.zipIdx_map_fst] at hmap

/-- Where positions only tell in faults, success is that of the items. -/
theorem mapM_zipIdx_eq_ok_iff {f : α × Nat → Except ε β} {R : α → β → Prop}
    (hf : ∀ a index b, f (a, index) = .ok b ↔ R a b) {l : List α} {bs : List β} :
    l.zipIdx.mapM f = .ok bs ↔ List.Forall₂ R l bs := by
  have hR : (fun located b => f located = .ok b) = fun located b => R (Prod.fst located) b := by
    funext located b
    exact propext (hf located.1 located.2 b)
  rw [mapM_eq_ok_iff, hR, ← List.forall₂_map_left_iff, List.zipIdx_map_fst]

theorem exists_of_mem_forall₂ {R : α → β → Prop} {l : List α} {bs : List β}
    (h : List.Forall₂ R l bs) {b : β} (hb : b ∈ bs) : ∃ a ∈ l, R a b := by
  induction h with
  | nil => cases hb
  | @cons a b' l bs ha _ ih =>
    rcases List.mem_cons.mp hb with rfl | hb
    · exact ⟨a, List.mem_cons_self, ha⟩
    · obtain ⟨a', hmem, ha'⟩ := ih hb
      exact ⟨a', List.mem_cons_of_mem a hmem, ha'⟩

/-- A relation that is a function, item by item. -/
theorem forall₂_iff_eq_map {R : α → β → Prop} {f : α → β} (hR : ∀ a b, R a b ↔ b = f a)
    {l : List α} {bs : List β} : List.Forall₂ R l bs ↔ bs = l.map f := by
  have hflip : R = fun a b => f a = b := by
    funext a b
    exact propext ((hR a b).trans eq_comm)
  rw [hflip, ← List.forall₂_map_left_iff, List.forall₂_eq_eq_eq, eq_comm]

/-- Every result is that of an item. -/
theorem exists_of_mem_mapM {f : α → Except ε β} {l : List α} {bs : List β}
    (h : l.mapM f = .ok bs) {b : β} (hb : b ∈ bs) : ∃ a ∈ l, f a = .ok b :=
  exists_of_mem_forall₂ (mapM_eq_ok_iff.mp h) hb

/-- Items that were made from their results succeed with these. -/
theorem mapM_map_eq_ok {f : α → Except ε β} {g : β → α} {bs : List β}
    (h : ∀ b ∈ bs, f (g b) = .ok b) : (bs.map g).mapM f = .ok bs := by
  rw [mapM_eq_ok_iff, List.forall₂_map_left_iff, List.forall₂_same]
  exact h

/-- The item at the least failing position decides. -/
theorem mapM_eq_error_iff {f : α → Except ε β} {l : List α} {e : ε} :
    l.mapM f = .error e ↔
      ∃ (k : Nat) (a : α), l[k]? = some a ∧ f a = .error e ∧
        ∀ j < k, ∀ a', l[j]? = some a' → ∃ b, f a' = .ok b := by
  induction l with
  | nil => simp [pure, Except.pure]
  | cons a l ih =>
    rw [List.mapM_cons, bind_eq_error_iff]
    constructor
    · rintro (h | ⟨b, hb, h⟩)
      · exact ⟨0, a, rfl, h, fun j hj => absurd hj (Nat.not_lt_zero j)⟩
      · obtain h | ⟨bs, -, h⟩ := bind_eq_error_iff.mp h
        · obtain ⟨k, a', hk, he, hbefore⟩ := ih.mp h
          refine ⟨k + 1, a', hk, he, ?_⟩
          intro j hj a'' ha''
          cases j with
          | zero => exact ⟨b, (Option.some.inj ha'') ▸ hb⟩
          | succ j => exact hbefore j (Nat.lt_of_succ_lt_succ hj) a'' ha''
        · cases h
    · rintro ⟨k, a', hk, he, hbefore⟩
      cases k with
      | zero => exact Or.inl ((Option.some.inj hk) ▸ he)
      | succ k =>
        obtain ⟨b, hb⟩ := hbefore 0 (Nat.zero_lt_succ k) a rfl
        refine Or.inr ⟨b, hb, bind_eq_error_iff.mpr (Or.inl (ih.mpr ⟨k, a', hk, he, ?_⟩))⟩
        exact fun j hj => hbefore (j + 1) (Nat.succ_lt_succ hj)

end QuantumCompiler
