import Mathlib

namespace ScoreDesk

theorem split_append_singleton {τ : Type} {run before after : List τ} {last t : τ}
    (split : run ++ [last] = before ++ t :: after) :
    (before = run ∧ t = last ∧ after = []) ∨
      ∃ between, run = before ++ t :: between ∧ after = between ++ [last] := by
  rcases List.eq_nil_or_concat after with rfl | ⟨between, later, rfl⟩
  · obtain ⟨rfl, same⟩ := List.append_inj' split rfl
    exact .inl ⟨rfl, (List.singleton_inj.1 same).symm, rfl⟩
  · rw [List.concat_eq_append, ← List.cons_append, ← List.append_assoc] at split
    obtain ⟨rfl, same⟩ := List.append_inj' split rfl
    obtain rfl := List.singleton_inj.1 same
    exact .inr ⟨between, rfl, List.concat_eq_append⟩

def Throughout {σ τ : Type} (step : σ → τ → σ) (start : σ) (run : List τ)
    (wanted : σ → τ → Prop) : Prop :=
  ∀ (before : List τ) (t : τ) (after : List τ), run = before ++ t :: after →
    wanted (before.foldl step start) t

theorem throughout_nil {σ τ : Type} {step : σ → τ → σ} {start : σ} {wanted : σ → τ → Prop} :
    Throughout step start [] wanted :=
  fun before t after split => by simp at split

theorem throughout_append_singleton {σ τ : Type} {step : σ → τ → σ} {start : σ} {run : List τ}
    {last : τ} {wanted : σ → τ → Prop} : Throughout step start (run ++ [last]) wanted ↔
      Throughout step start run wanted ∧ wanted (run.foldl step start) last := by
  constructor
  · intro all
    refine ⟨fun before t after split => ?_, all run last [] rfl⟩
    exact all before t (after ++ [last]) (by simp [split])
  · rintro ⟨earlier, now⟩ before t after split
    rcases split_append_singleton split with ⟨rfl, rfl, rfl⟩ | ⟨between, rfl, rfl⟩
    · exact now
    · exact earlier before t between rfl

/-- A property that some steps bring about and others end: after a run it holds exactly when a step
    brought it about that every later one kept, or when it held at first and every step kept it. -/
theorem foldl_iff_kept {σ τ : Type} {step : σ → τ → σ} {start : σ} {holds : σ → Prop}
    {brings keeps : σ → τ → Prop} (run : List τ)
    (steps : ∀ (before : List τ) (t : τ), before ++ [t] <+: run →
      (holds (step (before.foldl step start) t) ↔ brings (before.foldl step start) t ∨
        holds (before.foldl step start) ∧ keeps (before.foldl step start) t)) :
    holds (run.foldl step start) ↔
      (∃ (before : List τ) (t : τ) (after : List τ),
        run = before ++ t :: after ∧ brings (before.foldl step start) t ∧
        Throughout step (step (before.foldl step start) t) after keeps) ∨
      holds start ∧ Throughout step start run keeps := by
  -- From the end, since the last step tells whether an earlier cause still counts.
  induction run using List.reverseRecOn with
  | nil => simp [throughout_nil]
  | append_singleton run last ih =>
    have earlier := ih fun before t part =>
      steps before t (part.trans (List.prefix_append run [last]))
    rw [List.foldl_append, List.foldl_cons, List.foldl_nil, steps run last List.prefix_rfl, earlier,
      throughout_append_singleton]
    constructor
    · rintro (now | ⟨⟨before, t, after, rfl, caused, kept⟩ | ⟨initially, kept⟩, keeps_last⟩)
      · exact .inl ⟨run, last, [], rfl, now, throughout_nil⟩
      · rw [List.foldl_append, List.foldl_cons] at keeps_last
        exact .inl ⟨before, t, after ++ [last], by simp, caused,
          throughout_append_singleton.2 ⟨kept, keeps_last⟩⟩
      · exact .inr ⟨initially, kept, keeps_last⟩
    · rintro (⟨before, t, after, split, caused, kept⟩ | ⟨initially, kept, keeps_last⟩)
      · rcases split_append_singleton split with ⟨rfl, rfl, rfl⟩ | ⟨between, rfl, rfl⟩
        · exact .inl caused
        · obtain ⟨kept, keeps_last⟩ := throughout_append_singleton.1 kept
          refine .inr ⟨.inl ⟨before, t, between, rfl, caused, kept⟩, ?_⟩
          rw [List.foldl_append, List.foldl_cons]
          exact keeps_last
      · exact .inr ⟨.inr ⟨initially, kept⟩, keeps_last⟩

theorem foldl_iff_last_cause {σ τ : Type} {step : σ → τ → σ} {start : σ} {holds : σ → Prop}
    {brings : σ → τ → Prop} {keeps : τ → Prop} (initially : ¬ holds start) (run : List τ)
    (steps : ∀ (before : List τ) (t : τ), before ++ [t] <+: run →
      (holds (step (before.foldl step start) t) ↔
        brings (before.foldl step start) t ∨ holds (before.foldl step start) ∧ keeps t)) :
    holds (run.foldl step start) ↔
      ∃ (before : List τ) (t : τ) (after : List τ),
        run = before ++ t :: after ∧ brings (before.foldl step start) t ∧
        ∀ later ∈ after, keeps later := by
  have kept_iff (s : σ) (later : List τ) :
      Throughout step s later (fun _ t => keeps t) ↔ ∀ t ∈ later, keeps t := by
    constructor
    · intro all t member
      obtain ⟨before, after, split⟩ := List.append_of_mem member
      exact all before t after split
    · intro all before t after split
      exact all t (by rw [split]; simp)
  have causes := @foldl_iff_kept _ _ step start holds brings (fun _ t => keeps t) run steps
  simpa [initially, kept_iff] using causes

end ScoreDesk
