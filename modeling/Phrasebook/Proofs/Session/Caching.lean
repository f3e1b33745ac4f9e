import Phrasebook.Proofs.Session.Uncached

namespace Phrasebook

namespace Uncached

/-- Two sessions that cannot be told apart through one of their contexts. -/
structure AgreeOn (name : String) (left right : Uncached) : Prop where
  env : left.env = right.env
  sources : left.sources = right.sources
  plan : left.plan? name = right.plan? name

theorem AgreeOn.trans {name : String} {left middle right : Uncached}
    (first : AgreeOn name left middle) (second : AgreeOn name middle right) :
    AgreeOn name left right :=
  ⟨first.env.trans second.env, first.sources.trans second.sources, first.plan.trans second.plan⟩

end Uncached

def Step.configures (name : String) : Step → Bool
  | .context other _ => name = other
  | .drop other => name = other
  | .request other _ => name = other
  | _ => false

def Step.planAfter (env : Environment) (name : String) (plan? : Option Plan) : Step → Option Plan
  | .context other resources => if name = other then some ⟨resources, []⟩ else plan?
  | .drop other => if name = other then none else plan?
  | .request other requested =>
      if name = other then
        plan?.map fun plan =>
          match negotiate env.defaultLanguage env.available requested with
          | .error _ => plan
          | .ok codes => { plan with languages := codes.map Language.ofCode }
      else plan?
  | _ => plan?

def Step.names : Step → List String
  | .context name _ => [name]
  | .drop name => [name]
  | .request name _ => [name]
  | .query asked => [asked.context]
  | .parallel asked => asked.map Query.context
  | .info name => [name]
  | _ => []

theorem Step.planAfter_unconfigured {env : Environment} {name : String} {plan? : Option Plan}
    {step : Step} (unconfigured : step.configures name = false) :
    step.planAfter env name plan? = plan? := by
  cases step with
  | context other resources => exact if_neg (of_decide_eq_false unconfigured)
  | drop other => exact if_neg (of_decide_eq_false unconfigured)
  | request other requested => exact if_neg (of_decide_eq_false unconfigured)
  | _ => rfl

namespace Uncached

variable {uncached left right : Uncached} {name : String} {step : Step}

theorem plan?_perform (uncached : Uncached) (step : Step) (name : String) :
    (uncached.perform step).2.plan? name =
      step.planAfter uncached.env name (uncached.plan? name) := by
  cases step with
  | context other resources => exact plan?_setPlan uncached other name ⟨resources, []⟩
  | drop other => exact Table.find?_erase other name uncached.plans
  | request other requested =>
      simp only [perform, request, Step.planAfter]
      by_cases same : name = other
      · subst same
        rw [if_pos rfl]
        cases known : uncached.plan? name with
        | none => exact known
        | some plan =>
            simp only [Option.map_some]
            cases negotiate uncached.env.defaultLanguage uncached.env.available requested with
            | error failure => exact known
            | ok codes => exact (plan?_setPlan uncached name name _).trans (if_pos rfl)
      · rw [if_neg same]
        cases uncached.plan? other with
        | none => rfl
        | some plan =>
            simp only
            cases negotiate uncached.env.defaultLanguage uncached.env.available requested with
            | error failure => rfl
            | ok codes => exact (plan?_setPlan uncached other name _).trans (if_neg same)
  | _ => rfl

theorem perform_unconfigured (unconfigured : step.configures name = false) :
    AgreeOn name (uncached.perform step).2 uncached := by
  obtain ⟨sameEnv, sameSources⟩ := perform_env uncached step
  exact ⟨sameEnv, sameSources,
    (plan?_perform uncached step name).trans (Step.planAfter_unconfigured unconfigured)⟩

theorem AgreeOn.perform (agree : AgreeOn name left right) (step : Step) :
    AgreeOn name (left.perform step).2 (right.perform step).2 := by
  obtain ⟨leftEnv, leftSources⟩ := perform_env left step
  obtain ⟨rightEnv, rightSources⟩ := perform_env right step
  refine ⟨?_, ?_, ?_⟩
  · rw [leftEnv, rightEnv, agree.env]
  · rw [leftSources, rightSources, agree.sources]
  · rw [plan?_perform, plan?_perform, agree.env, agree.plan]

/-- What a session knows of a context only depends on the steps that configure it. -/
theorem AgreeOn.run (agree : AgreeOn name left right) (steps : List Step) :
    AgreeOn name (left.run steps).2 (right.run (steps.filter (Step.configures name))).2 := by
  induction steps generalizing left right with
  | nil => exact agree
  | cons step steps ih =>
      cases configured : step.configures name with
      | false =>
          rw [List.filter_cons_of_neg (by simp [configured])]
          exact ih ((perform_unconfigured configured).trans agree)
      | true =>
          rw [List.filter_cons_of_pos configured]
          exact ih (agree.perform step)

/-- An answer only depends on what the contexts it is about are for. -/
theorem perform_reply (env : left.env = right.env) (sources : left.sources = right.sources)
    (plans : ∀ name ∈ step.names, left.plan? name = right.plan? name) :
    (left.perform step).1 = (right.perform step).1 := by
  have asks (query : Query) (plan : left.plan? query.context = right.plan? query.context) :
      left.ask query = right.ask query := by
    simp only [ask, plan, env, sources]
  cases step with
  | drop other =>
      have plan : left.plan? other = right.plan? other := plans other List.mem_cons_self
      simp only [perform, plan]
  | request other requested =>
      have plan : left.plan? other = right.plan? other := plans other List.mem_cons_self
      simp only [perform, request, plan, env]
      cases right.plan? other with
      | none => rfl
      | some plan =>
          simp only
          cases negotiate right.env.defaultLanguage right.env.available requested <;> rfl
  | query query =>
      have plan : left.plan? query.context = right.plan? query.context :=
        plans query.context List.mem_cons_self
      simp only [perform, asks query plan]
  | parallel queries =>
      refine congrArg Reply.all (List.map_congr_left ?_)
      intro query member
      exact asks query (plans query.context (List.mem_map_of_mem member))
  | resource key => simp only [perform, env, sources]
  | pluralLanguage language => simp only [perform, env]
  | environment => simp only [perform, env]
  | _ => rfl

end Uncached

namespace Session

section

variable (env : Environment) (sources : Sources) (capacity : Nat) (manualDrain : Bool)
  (shippedDefault : env.derivedPseudo? env.defaultLanguage = none)

include shippedDefault

theorem run_mirrored (steps : List Step) (steady : ∀ step ∈ steps, step.Steady) :
    ((opened env sources capacity manualDrain).run steps).1.map Report.reply =
        (Uncached.run { env := env, sources := sources } steps).1 ∧
      (Uncached.run { env := env, sources := sources } steps).2.Mirrored
        ((opened env sources capacity manualDrain).run steps).2 :=
  (Uncached.Mirrored.opened env sources capacity manualDrain).run shippedDefault steps steady

theorem reply_after_run (steps : List Step) (steady : ∀ step ∈ steps, step.Steady) (asked : Step)
    (askedSteady : asked.Steady) :
    (((opened env sources capacity manualDrain).run steps).2.step asked).1.reply =
      ((Uncached.run { env := env, sources := sources } steps).2.perform asked).1 := by
  obtain ⟨-, mirrored⟩ :=
    run_mirrored env sources capacity manualDrain shippedDefault steps steady
  have shippedAfter :
      (Uncached.run { env := env, sources := sources } steps).2.env.derivedPseudo?
        (Uncached.run { env := env, sources := sources } steps).2.env.defaultLanguage = none := by
    rw [(Uncached.run_env _ steps).1]
    exact shippedDefault
  exact (mirrored.perform shippedAfter asked askedSteady).1

end

/-- As long as the sources stay as they are, every answer is that of a session without a cache. It
is the same after any other steps that configured the contexts it is about in the same way. -/
theorem cache_invisible (env : Environment) (sources : Sources) (capacity : Nat)
    (manualDrain : Bool) (shippedDefault : env.derivedPseudo? env.defaultLanguage = none) :
    (∀ steps : List Step, (∀ step ∈ steps, step.Steady) →
      ((opened env sources capacity manualDrain).run steps).1.map Report.reply =
        (Uncached.run { env := env, sources := sources } steps).1) ∧
    ∀ before other : List Step, (∀ step ∈ before, step.Steady) → (∀ step ∈ other, step.Steady) →
      ∀ asked : Step, asked.Steady →
        (∀ name ∈ asked.names,
          before.filter (Step.configures name) = other.filter (Step.configures name)) →
        (((opened env sources capacity manualDrain).run before).2.step asked).1.reply =
          (((opened env sources capacity manualDrain).run other).2.step asked).1.reply := by
  constructor
  · intro steps steady
    exact (run_mirrored env sources capacity manualDrain shippedDefault steps steady).1
  · intro before other beforeSteady otherSteady asked askedSteady configuredAlike
    let start : Uncached := { env := env, sources := sources }
    have agree (name : String) (steps : List Step) :
        Uncached.AgreeOn name (start.run steps).2
          (start.run (steps.filter (Step.configures name))).2 :=
      Uncached.AgreeOn.run ⟨rfl, rfl, rfl⟩ steps
    obtain ⟨beforeEnv, beforeSources⟩ := start.run_env before
    obtain ⟨otherEnv, otherSources⟩ := start.run_env other
    rw [reply_after_run env sources capacity manualDrain shippedDefault before beforeSteady asked
        askedSteady,
      reply_after_run env sources capacity manualDrain shippedDefault other otherSteady asked
        askedSteady]
    refine Uncached.perform_reply (beforeEnv.trans otherEnv.symm)
      (beforeSources.trans otherSources.symm) ?_
    intro name member
    rw [(agree name before).plan, (agree name other).plan, configuredAlike name member]

theorem cache_invisible_leaflet :
    Environment.leaflet.derivedPseudo? "en" = none ∧
    (((opened .leaflet .leaflet 64 false).run
        [.context "front" ["leaflet.txt"], .request "front" ["qps-ploc"],
          .query (.ready "front"), .invalidate, .resource ⟨"leaflet.txt", "de"⟩,
          .context "back" []]).2.step (.query (.value "front" "line0" []))).1.reply =
      (((opened .leaflet .leaflet 64 false).run
        [.context "front" ["leaflet.txt"], .request "front" ["qps-ploc"]]).2.step
          (.query (.value "front" "line0" []))).1.reply := by
  have shippedDefault : Environment.leaflet.derivedPseudo? "en" = none := by decide +kernel
  refine ⟨shippedDefault, ?_⟩
  refine (cache_invisible .leaflet .leaflet 64 false shippedDefault).2 _ _ ?_ ?_ _ trivial ?_
  · simp [Step.Steady]
  · simp [Step.Steady]
  · simp [Step.names, Step.configures, Query.context]

end Session

end Phrasebook
