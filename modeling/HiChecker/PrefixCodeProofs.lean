import Mathlib.Data.List.Basic

/-!
# Self-delimiting codes

A code writes values as lists of symbols. It is self-delimiting when the end of a value
shows in what is written, whatever follows: two texts that start with written values start
with the same value.

* **`SelfDelimiting`** — the property, and what composes it: pairs, fixed text before and
  after, renaming.
* **`SelfDelimiting.before`** — an injective code that never writes a symbol, followed by
  that symbol.
* **`SelfDelimiting.closed`** — values one after the other, up to a closing symbol.
* **`SelfDelimiting.separated`** — values with a separator between them, up to a closing
  symbol.
-/

namespace PrefixCodeLib

variable {α β σ : Type}

/-- A written value shows where it ends. -/
def SelfDelimiting (f : α → List σ) : Prop :=
  ∀ a b x y, f a ++ x = f b ++ y → a = b ∧ x = y

/-- No value starts with `close`. -/
def StartsOff (close : σ) (f : α → List σ) : Prop :=
  ∀ a, ∃ c cs, f a = c :: cs ∧ c ≠ close

theorem SelfDelimiting.injective {f : α → List σ} (hf : SelfDelimiting f) :
    Function.Injective f := by
  intro a b h
  refine (hf a b [] [] ?_).1
  rw [h]

/-- Two values, one after the other. -/
theorem SelfDelimiting.pair {f : α → List σ} {g : β → List σ} (hf : SelfDelimiting f)
    (hg : SelfDelimiting g) : SelfDelimiting (fun p : α × β => f p.1 ++ g p.2) := by
  rintro ⟨a, a'⟩ ⟨b, b'⟩ x y h
  simp only [List.append_assoc] at h
  obtain ⟨rfl, hrest⟩ := hf a b _ _ h
  obtain ⟨rfl, rfl⟩ := hg a' b' x y hrest
  exact ⟨rfl, rfl⟩

/-- A fixed text before the value. -/
theorem SelfDelimiting.after (text : List σ) {f : α → List σ} (hf : SelfDelimiting f) :
    SelfDelimiting (fun a => text ++ f a) := by
  intro a b x y h
  simp only [List.append_assoc] at h
  exact hf a b x y (List.append_cancel_left h)

/-- A fixed text after the value. -/
theorem SelfDelimiting.followed {f : α → List σ} (hf : SelfDelimiting f) (text : List σ) :
    SelfDelimiting (fun a => f a ++ text) := by
  intro a b x y h
  simp only [List.append_assoc] at h
  obtain ⟨rfl, hrest⟩ := hf a b _ _ h
  exact ⟨rfl, List.append_cancel_left hrest⟩

theorem SelfDelimiting.comp {f : β → List σ} (hf : SelfDelimiting f) {g : α → β}
    (hg : Function.Injective g) : SelfDelimiting (fun a => f (g a)) := by
  intro a b x y h
  obtain ⟨heq, hrest⟩ := hf (g a) (g b) x y h
  exact ⟨hg heq, hrest⟩

/-- Up to the first `stop`. -/
theorem eq_of_append_stop {stop : σ} :
    ∀ {u v x y : List σ}, stop ∉ u → stop ∉ v → u ++ stop :: x = v ++ stop :: y →
      u = v ∧ x = y := by
  intro u
  induction u with
  | nil =>
      intro v x y _ hv h
      cases v with
      | nil => exact ⟨rfl, (List.cons.inj h).2⟩
      | cons c v => exact absurd (List.mem_cons.mpr (Or.inl (List.cons.inj h).1)) hv
  | cons c u ih =>
      intro v x y hu hv h
      cases v with
      | nil => exact absurd (List.mem_cons.mpr (Or.inl (List.cons.inj h).1.symm)) hu
      | cons d v =>
          obtain ⟨rfl, htail⟩ := List.cons.inj h
          obtain ⟨rfl, rfl⟩ := ih (fun hmem => hu (List.mem_cons_of_mem _ hmem))
            (fun hmem => hv (List.mem_cons_of_mem _ hmem)) htail
          exact ⟨rfl, rfl⟩

/-- A value without `stop`, and then `stop`. -/
theorem SelfDelimiting.before {f : α → List σ} (hinj : Function.Injective f) {stop : σ}
    (hfree : ∀ a, stop ∉ f a) : SelfDelimiting (fun a => f a ++ [stop]) := by
  intro a b x y h
  simp only [List.append_assoc, List.singleton_append] at h
  obtain ⟨heq, hrest⟩ := eq_of_append_stop (hfree a) (hfree b) h
  exact ⟨hinj heq, hrest⟩

/-- Values one after the other, up to `close`. -/
theorem SelfDelimiting.closed {f : α → List σ} (hf : SelfDelimiting f) {close : σ}
    (hstart : StartsOff close f) :
    SelfDelimiting (fun l : List α => l.flatMap f ++ [close]) := by
  have hend : ∀ (b : α) (bs : List α) (x y : List σ),
      ¬ [close] ++ x = (b :: bs).flatMap f ++ [close] ++ y := by
    intro b bs x y h
    obtain ⟨c, cs, hc, hne⟩ := hstart b
    rw [List.flatMap_cons, hc] at h
    exact hne (List.cons.inj h).1.symm
  intro l
  induction l with
  | nil =>
      intro l' x y h
      cases l' with
      | nil => exact ⟨rfl, List.append_cancel_left h⟩
      | cons b bs => exact absurd h (hend b bs x y)
  | cons a as ih =>
      intro l' x y h
      cases l' with
      | nil => exact absurd h.symm (hend a as y x)
      | cons b bs =>
          simp only [List.flatMap_cons, List.append_assoc] at h
          obtain ⟨rfl, hrest⟩ := hf a b _ _ h
          rw [← List.append_assoc, ← List.append_assoc] at hrest
          obtain ⟨rfl, rfl⟩ := ih bs x y hrest
          exact ⟨rfl, rfl⟩

/-- Values with `sep` between them, up to `close`. -/
theorem SelfDelimiting.separated {f : α → List σ} (hf : SelfDelimiting f) {sep close : σ}
    (hne : sep ≠ close) (hstart : StartsOff close f) :
    SelfDelimiting (fun l : List α => [sep].intercalate (l.map f) ++ [close]) := by
  -- what is behind the first value is the rest, each value after a separator
  have htail : ∀ (a : α) (as : List α), [sep].intercalate ((a :: as).map f)
      = f a ++ as.flatMap (fun b => sep :: f b) := by
    intro a as
    induction as generalizing a with
    | nil => simp
    | cons b bs ih =>
        rw [List.map_cons, List.map_cons, List.intercalate_cons_cons, ← List.map_cons, ih]
        simp
  have hrest : SelfDelimiting (fun as : List α =>
      as.flatMap (fun b => sep :: f b) ++ [close]) :=
    (hf.after [sep]).closed (fun b => ⟨sep, f b, rfl, hne⟩)
  have hpair := hf.pair hrest
  intro l l' x y h
  have hend : ∀ (b : α) (bs : List α) (x y : List σ),
      ¬ [close] ++ x = [sep].intercalate ((b :: bs).map f) ++ [close] ++ y := by
    intro b bs x y h
    obtain ⟨c, cs, hc, hoff⟩ := hstart b
    rw [htail, hc] at h
    exact hoff (List.cons.inj h).1.symm
  cases l with
  | nil =>
      cases l' with
      | nil => exact ⟨rfl, List.append_cancel_left h⟩
      | cons b bs => exact absurd h (hend b bs x y)
  | cons a as =>
      cases l' with
      | nil => exact absurd h.symm (hend a as y x)
      | cons b bs =>
          have h : [sep].intercalate ((a :: as).map f) ++ [close] ++ x
              = [sep].intercalate ((b :: bs).map f) ++ [close] ++ y := h
          rw [htail, htail, List.append_assoc (f a), List.append_assoc (f b)] at h
          obtain ⟨heq, hxy⟩ := hpair (a, as) (b, bs) x y h
          obtain ⟨rfl, rfl⟩ := Prod.mk.inj heq
          exact ⟨rfl, hxy⟩

end PrefixCodeLib
