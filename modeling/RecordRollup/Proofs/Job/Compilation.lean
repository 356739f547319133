import Mathlib
import RecordRollup.Job
import RecordRollup.Proofs.Criteria.Grammar
import RecordRollup.Proofs.Plan.BuiltPlan
import RecordRollup.Proofs.Plan.CallOrder
import RecordRollup.Proofs.Rollup.GroupFields
import RecordRollup.Proofs.Rollup.Reference
import RecordRollup.Proofs.Schema.RoundTrip

namespace RecordRollup

section Alongside

variable {α β γ : Type} {related : α → β → Prop} {items : List α} {others : List β}

theorem exists_mem_of_forall₂ (hrelated : List.Forall₂ related items others) {item : α}
    (hitem : item ∈ items) : ∃ other ∈ others, related item other := by
  induction hrelated with
  | nil => cases hitem
  | cons hfirst _ ih =>
      rcases List.mem_cons.mp hitem with rfl | hitem
      · exact ⟨_, List.mem_cons_self, hfirst⟩
      · obtain ⟨other, hother, hthis⟩ := ih hitem
        exact ⟨other, List.mem_cons_of_mem _ hother, hthis⟩

theorem map_eq_map_of_forall₂ {part : α → γ} {otherPart : β → γ}
    (hrelated : List.Forall₂ related items others)
    (hparts : ∀ item other, related item other → part item = otherPart other) :
    items.map part = others.map otherPart := by
  rw [← List.forall₂_eq_eq_eq, List.forall₂_map_left_iff, List.forall₂_map_right_iff]
  exact hrelated.imp hparts

end Alongside

theorem bind_pair_eq_ok_iff {ε α β : Type} {first : α} {outcome : Except ε β} {pair : α × β} :
    (outcome >>= fun second => pure (first, second)) = .ok pair ↔
      first = pair.1 ∧ outcome = .ok pair.2 := by
  rw [bind_eq_ok_iff]
  constructor
  · rintro ⟨second, hsecond, hpair⟩
    cases hpair
    exact ⟨rfl, hsecond⟩
  · rintro ⟨rfl, hsecond⟩
    exact ⟨_, hsecond, rfl⟩

theorem bind_pair_eq_error_iff {ε α β : Type} {first : α} {outcome : Except ε β} {error : ε} :
    (outcome >>= fun second => pure (first, second)) = .error error ↔ outcome = .error error := by
  rw [bind_eq_error_iff]
  simp [pure, Except.pure]

namespace Plan

theorem schema?_eq_some_iff {plan : Plan} {name : String} {schema : Schema} :
    plan.schema? name = some schema ↔
      (∃ source ∈ plan.sources, source.schema = schema) ∧ schema.name = name := by
  have distinct : ((plan.sources.map Source.schema).map Schema.name).Nodup := by
    simpa [Function.comp_def] using plan.consistent.schemas_distinct
  rw [schema?, find?_part_eq_some_iff distinct, List.mem_map]

namespace Draft

variable {draft : Draft} {plan : Plan} {common : Criteria}

theorem common_of_build (hcommon : draft.common = some common) (hbuild : draft.build = .ok plan) :
    plan.common = common ∧ draft.Acceptable common ∧ plan.sources = draft.planned := by
  obtain ⟨built, hbuilt, ok, helements, hsources⟩ := exists_acceptable_of_build hbuild
  obtain rfl := Option.some.inj (hbuilt.symm.trans hcommon)
  exact ⟨Criteria.eq_of_elements helements, ok, hsources⟩

theorem exists_planned {entry : Int32 × Schema} (hentry : entry ∈ draft.sources) :
    ∃ source ∈ draft.planned, source.id = entry.1 ∧ source.schema = entry.2 :=
  ⟨_, List.mem_map_of_mem (mem_ordered.mpr hentry), rfl, rfl⟩

theorem exists_planned_specific (ok : draft.Acceptable common) {entry : Int32 × Criteria}
    (hentry : entry ∈ draft.specific) :
    ∃ source ∈ draft.planned, source.id = entry.1 ∧
      source.specific.map (List.map SortKey.toSortElement) = some entry.2.elements := by
  obtain ⟨given, hgiven, hid⟩ := List.mem_map.mp (ok.specific_known entry hentry)
  obtain ⟨source, hsource, hsourceId, -⟩ := exists_planned hgiven
  have hfound : draft.specificOf? source.id = some entry.2 := by
    rw [specificOf?_eq_some_iff ok.specific_once, hsourceId, hid]
    exact hentry
  refine ⟨source, hsource, hsourceId.trans hid, ?_⟩
  rw [specific_of_planned ok hsource, hfound, Option.map_some]

theorem mem_specific_of_planned (ok : draft.Acceptable common) {source : Source}
    (hsource : source ∈ draft.planned) (hspecific : source.specific ≠ none) :
    source.id ∈ draft.specific.map Prod.fst := by
  obtain ⟨keys, hkeys⟩ := Option.ne_none_iff_exists'.mp hspecific
  have helements := specific_of_planned ok hsource
  rw [hkeys, Option.map_some, eq_comm, Option.map_eq_some_iff] at helements
  obtain ⟨criteria, hfound, -⟩ := helements
  exact List.mem_map_of_mem ((specificOf?_eq_some_iff ok.specific_once).mp hfound)

end Draft

end Plan

section Errors

variable {registry : Registry} {text name : String} {error : Error}

theorem Criteria.isConfiguration_of_parse (herror : parse text registry = .error error) :
    error.isConfiguration = true := by
  obtain ⟨_, segment, _, _, -, -, -, hoffends⟩ := parseSegments_eq_error_iff.mp herror
  cases hoffends with
  | words hmisspelled =>
      generalize Text.words segment = words at hmisspelled
      cases hmisspelled <;> rfl
  | name => rfl

theorem Schema.isConfiguration_of_parse (herror : parse name text = .error error) :
    error.isConfiguration = true := by
  rcases bind_eq_error_iff.mp herror with hfields | ⟨fields, -, hmade⟩
  · obtain ⟨token, -, htoken⟩ := exists_of_mapM_eq_error hfields
    simp only [parseField] at htoken
    split at htoken
    · cases htoken
      rfl
    · split at htoken
      · cases htoken
        rfl
      · cases htoken
  · rw [ofFields] at hmade
    split at hmade
    · cases hmade
      rfl
    · split at hmade
      · cases hmade
        rfl
      · cases hmade

theorem Plan.Draft.isConfiguration_of_explains {draft : Draft} (hexplains : draft.Explains error) :
    error.isConfiguration = true := by
  rcases hexplains with ⟨fault, rfl⟩ | ⟨comparator, name, fault, rfl, -⟩ <;> rfl

theorem Plan.Draft.isConfiguration_of_build {draft : Draft} (herror : draft.build = .error error) :
    error.isConfiguration = true := by
  have hfault := build_eq_error_iff.mp herror
  rw [fault?] at hfault
  split at hfault
  · cases hfault
    rfl
  · next common hcommon =>
      rcases Option.or_eq_some_iff.mp hfault with hsetup | ⟨-, hspecific⟩
      · exact isConfiguration_of_explains (explains_of_setupFault? hcommon hsetup)
      · obtain ⟨source, -, hsource⟩ := List.exists_of_findSome?_eq_some hspecific
        exact isConfiguration_of_explains (explains_of_sourceFault? hsource)

end Errors

namespace JobConfig

/-- What the texts of a configuration say, as a draft with its common criteria. -/
structure ReadAs (config : JobConfig) (registry : Registry) (draft : Plan.Draft) (common : Criteria) :
    Prop where
  not_blank : Text.trim config.sortBy.toList ≠ []
  sortBy : Criteria.parse config.sortBy registry = .ok common
  draft_common : draft.common = some common
  sources : List.Forall₂ (fun source entry => source.id = entry.1 ∧
    Schema.parse source.name source.fields = .ok entry.2) config.sources draft.sources
  specific : List.Forall₂ (fun given entry => given.1 = entry.1 ∧
    Criteria.parse given.2 registry = .ok entry.2) config.specificSortBy draft.specific

variable {config : JobConfig} {registry : Registry} {draft : Plan.Draft} {common : Criteria}
  {grouper : Grouper} {error : Error}

theorem draft_eq_ok_iff :
    config.draft registry = .ok draft ↔ ∃ common, config.ReadAs registry draft common := by
  rw [JobConfig.draft]
  split
  · next hblank =>
      rw [List.isEmpty_iff] at hblank
      simp only [reduceCtorEq, false_iff, not_exists]
      exact fun common hread => hread.not_blank hblank
  · next hblank =>
      rw [List.isEmpty_iff] at hblank
      simp only [↓bind_pair_eq_ok_iff, bind_eq_ok_iff, mapM_eq_ok_iff]
      constructor
      · rintro ⟨common, hcommon, sources, hsources, specific, hspecific, hdraft⟩
        cases hdraft
        exact ⟨common, hblank, hcommon, rfl, hsources, hspecific⟩
      · rintro ⟨common, hread⟩
        refine ⟨common, hread.sortBy, _, hread.sources, _, hread.specific, ?_⟩
        rw [← hread.draft_common]
        rfl

theorem isConfiguration_of_draft (herror : config.draft registry = .error error) :
    error.isConfiguration = true := by
  rw [JobConfig.draft] at herror
  split at herror
  · cases herror
    rfl
  · rcases bind_eq_error_iff.mp herror with hcommon | ⟨common, -, herror⟩
    · exact Criteria.isConfiguration_of_parse hcommon
    rcases bind_eq_error_iff.mp herror with hsources | ⟨sources, -, herror⟩
    · obtain ⟨source, -, hsource⟩ := exists_of_mapM_eq_error hsources
      exact Schema.isConfiguration_of_parse (bind_pair_eq_error_iff.mp hsource)
    rcases bind_eq_error_iff.mp herror with hspecific | ⟨specific, -, hnone⟩
    · obtain ⟨given, -, hgiven⟩ := exists_of_mapM_eq_error hspecific
      exact Criteria.isConfiguration_of_parse (bind_pair_eq_error_iff.mp hgiven)
    cases hnone

theorem isConfiguration_of_compile (herror : config.compile registry = .error error) :
    error.isConfiguration = true := by
  rcases bind_eq_error_iff.mp herror with hdraft | ⟨draft, -, herror⟩
  · exact isConfiguration_of_draft hdraft
  rcases bind_eq_error_iff.mp herror with hplan | ⟨plan, -, hfields⟩
  · exact Plan.Draft.isConfiguration_of_build hplan
  · obtain ⟨fault, rfl⟩ := Grouper.exists_groupBy_of_ofFields hfields
    rfl

theorem compile_eq_ok_iff :
    config.compile registry = .ok grouper ↔
      ∃ draft common, config.ReadAs registry draft common ∧ draft.build = .ok grouper.plan ∧
        grouper.fields = config.groupBy ∧
          Grouper.baseOf? config.groupBy config.rollupFrom = some grouper.base := by
  simp only [compile, bind_eq_ok_iff, draft_eq_ok_iff, Grouper.ofFields_eq_ok_iff]
  constructor
  · rintro ⟨draft, ⟨common, hread⟩, _, hplan, rfl, hfields, hbase⟩
    exact ⟨draft, common, hread, hplan, hfields, hbase⟩
  · rintro ⟨draft, common, hread, hplan, hfields, hbase⟩
    exact ⟨draft, ⟨common, hread⟩, _, hplan, rfl, hfields, hbase⟩

theorem exists_compile_iff :
    (∃ grouper, config.compile registry = .ok grouper) ↔
      ∃ draft common, config.ReadAs registry draft common ∧ draft.Acceptable common ∧
        config.groupBy ≠ [] ∧ config.groupBy <+: common.names ∧
          ∀ name ∈ config.rollupFrom, name ∈ config.groupBy := by
  constructor
  · rintro ⟨grouper, hcompile⟩
    obtain ⟨draft, common, hread, hbuild, hfields, hbase⟩ := compile_eq_ok_iff.mp hcompile
    obtain ⟨rfl, ok, -⟩ := Plan.Draft.common_of_build hread.draft_common hbuild
    have hmade := Grouper.ofFields_eq_ok_iff.mpr ⟨rfl, hfields, hbase⟩
    exact ⟨draft, _, hread, ok, Grouper.exists_ofFields_iff.mp ⟨grouper, hmade⟩⟩
  · rintro ⟨draft, common, hread, ok, hgroups⟩
    have hfault := Plan.Draft.fault?_eq_none_iff.mpr ⟨common, hread.draft_common, ok⟩
    obtain ⟨plan, hbuild⟩ := Plan.Draft.exists_build_iff.mpr hfault
    obtain ⟨rfl, -, -⟩ := Plan.Draft.common_of_build hread.draft_common hbuild
    obtain ⟨grouper, hmade⟩ := Grouper.exists_ofFields_iff.mpr hgroups
    obtain ⟨rfl, hfields, hbase⟩ := Grouper.ofFields_eq_ok_iff.mp hmade
    exact ⟨grouper, compile_eq_ok_iff.mpr ⟨draft, _, hread, hbuild, hfields, hbase⟩⟩

/-- What a compiled job has of its configuration. Its sources have the ids of those that are configured,
and the schemas that are written for them, each of which is found by its name; their specific keys are
the criteria that are written for their ids. It groups by the fields of the configuration, which are the
first names of the common criteria, and reports from the named one on. -/
structure Compiled (config : JobConfig) (registry : Registry) (grouper : Grouper) : Prop where
  sortBy : Criteria.parse config.sortBy registry = .ok grouper.plan.common
  ids : (grouper.plan.sources.map Source.id).Perm (config.sources.map SourceConfig.id)
  ids_distinct : (config.sources.map SourceConfig.id).Nodup
  names_distinct : (config.sources.map SourceConfig.name).Nodup
  schemas : ∀ given ∈ config.sources, ∃ schema,
    Schema.parse given.name given.fields = .ok schema ∧
      grouper.plan.schema? given.name = some schema ∧
        ∃ source ∈ grouper.plan.sources, source.id = given.id ∧ source.schema = schema
  specific_distinct : (config.specificSortBy.map Prod.fst).Nodup
  specific : ∀ given ∈ config.specificSortBy, ∃ criteria,
    Criteria.parse given.2 registry = .ok criteria ∧
      ∃ source ∈ grouper.plan.sources, source.id = given.1 ∧
        source.specific.map (List.map SortKey.toSortElement) = some criteria.elements
  specific_only : ∀ source ∈ grouper.plan.sources,
    source.specific ≠ none → source.id ∈ config.specificSortBy.map Prod.fst
  fields : grouper.fields = config.groupBy
  fields_ne_nil : config.groupBy ≠ []
  fields_first : config.groupBy <+: grouper.plan.common.names
  base_first : config.rollupFrom = none → grouper.base = 0
  base_named : ∀ name ∈ config.rollupFrom, config.groupBy.idxOf? name = some grouper.base

namespace ReadAs

theorem ids (hread : config.ReadAs registry draft common) :
    config.sources.map SourceConfig.id = draft.sources.map Prod.fst :=
  map_eq_map_of_forall₂ hread.sources fun _ _ hentry => hentry.1

theorem names (hread : config.ReadAs registry draft common) :
    config.sources.map SourceConfig.name = draft.sources.map fun source => source.2.name :=
  map_eq_map_of_forall₂ hread.sources fun _ _ hentry =>
    (Schema.parse_eq_ok_iff.mp hentry.2).1.symm

theorem specificIds (hread : config.ReadAs registry draft common) :
    config.specificSortBy.map Prod.fst = draft.specific.map Prod.fst :=
  map_eq_map_of_forall₂ hread.specific fun _ _ hentry => hentry.1

end ReadAs

theorem compiled_of_compile (hcompile : config.compile registry = .ok grouper) :
    config.Compiled registry grouper := by
  obtain ⟨draft, common, hread, hbuild, hfields, hbase⟩ := compile_eq_ok_iff.mp hcompile
  obtain ⟨rfl, ok, hsources⟩ := Plan.Draft.common_of_build hread.draft_common hbuild
  obtain ⟨hbaseFirst, hbaseNamed⟩ := Grouper.baseOf?_eq_some_iff.mp hbase
  exact {
    sortBy := hread.sortBy
    ids := by
      rw [hread.ids, hsources, Plan.Draft.planned, List.map_map]
      exact draft.ordered_perm.map Prod.fst
    ids_distinct := hread.ids ▸ ok.ids_distinct
    names_distinct := hread.names ▸ ok.names_distinct
    schemas := by
      intro given hgiven
      obtain ⟨entry, hentry, hid, hschema⟩ := exists_mem_of_forall₂ hread.sources hgiven
      obtain ⟨source, hsource, hsourceId, hsourceSchema⟩ := Plan.Draft.exists_planned hentry
      rw [← hsources] at hsource
      refine ⟨entry.2, hschema, ?_, source, hsource, hsourceId.trans hid.symm, hsourceSchema⟩
      rw [Plan.schema?_eq_some_iff]
      exact ⟨⟨source, hsource, hsourceSchema⟩, (Schema.parse_eq_ok_iff.mp hschema).1⟩
    specific_distinct := hread.specificIds ▸ ok.specific_once
    specific := by
      intro given hgiven
      obtain ⟨entry, hentry, hid, hcriteria⟩ := exists_mem_of_forall₂ hread.specific hgiven
      rw [hid, hsources]
      exact ⟨entry.2, hcriteria, Plan.Draft.exists_planned_specific ok hentry⟩
    specific_only := by
      intro source hsource hspecific
      rw [hread.specificIds]
      exact Plan.Draft.mem_specific_of_planned ok (hsources ▸ hsource) hspecific
    fields := hfields
    fields_ne_nil := hfields ▸ grouper.fields_ne_nil
    fields_first := hfields ▸ grouper.fields_first
    base_first := hbaseFirst
    base_named := hbaseNamed }

theorem compile_of_perm (config : JobConfig) {sources : List SourceConfig}
    (hperm : sources.Perm config.sources)
    (hcompile : config.compile registry = .ok grouper) :
    { config with sources }.compile registry = .ok grouper := by
  obtain ⟨draft, common, hread, hbuild, hfields, hbase⟩ := compile_eq_ok_iff.mp hcompile
  obtain ⟨entries, hentries, hentriesPerm⟩ := List.perm_comp_forall₂ hperm hread.sources
  have hreadOther : { config with sources }.ReadAs registry { draft with sources := entries } common :=
    { hread with sources := hentries }
  have hsame : draft.Rearranged { draft with sources := entries } :=
    ⟨rfl, hentriesPerm.symm, .refl _⟩
  rcases hsame.build with ⟨plan, hplan, hother⟩ | ⟨error, other, herror, -, -⟩
  · obtain rfl := Except.ok.inj (hplan.symm.trans hbuild)
    exact compile_eq_ok_iff.mpr ⟨_, common, hreadOther, hother, hfields, hbase⟩
  · rw [hbuild] at herror
    cases herror

/-- A configuration is compiled exactly if its texts can be read and what they say fits together; it is
compiled to a job that has all that it asks for, and no more. Any error is one of the configuration,
never of a field or of the program itself. The sources can be given in any order. -/
theorem compile_sound (config : JobConfig) (registry : Registry) :
    (∀ error, config.compile registry = .error error → error.isConfiguration = true ∧
      (∀ fault, error ≠ .field fault) ∧ ∀ fault, error ≠ .internal fault) ∧
    ((∃ grouper, config.compile registry = .ok grouper) ↔
      ∃ draft common, config.ReadAs registry draft common ∧ draft.Acceptable common ∧
        config.groupBy ≠ [] ∧ config.groupBy <+: common.names ∧
          ∀ name ∈ config.rollupFrom, name ∈ config.groupBy) ∧
    (∀ grouper, config.compile registry = .ok grouper → config.Compiled registry grouper) ∧
    ∀ sources : List SourceConfig, sources.Perm config.sources → ∀ grouper,
      { config with sources }.compile registry = .ok grouper ↔
        config.compile registry = .ok grouper := by
  refine ⟨?_, exists_compile_iff, fun grouper => compiled_of_compile, ?_⟩
  · intro error herror
    have hconfiguration := isConfiguration_of_compile herror
    refine ⟨hconfiguration, ?_, ?_⟩
    · rintro fault rfl
      cases hconfiguration
    · rintro fault rfl
      cases hconfiguration
  · intro sources hperm grouper
    exact ⟨compile_of_perm { config with sources } hperm.symm, compile_of_perm config hperm⟩

end JobConfig

namespace Sample

/-- The comparator that users are sorted by. -/
def registry : Registry where
  entries := byUser.comparator.toList

/-- The clicks and orders as a configuration, grouped by user and by source. -/
def job : JobConfig where
  sources := [⟨7, "orders", "#source#:vint,amount:double,user:string"⟩,
    ⟨-3, "clicks", "user:string, url:string, #source#:vint, time:long"⟩]
  sortBy := "user using ignoring_case asc, #source# desc"
  specificSortBy := [(-3, "time desc")]
  groupBy := ["user", "#source#"]
  rollupFrom := some "user"

end Sample

namespace JobConfig

theorem compile_sound_clicks :
    Sample.job.compile Sample.registry = .ok Sample.grouper ∧
      { Sample.job with sources := Sample.job.sources.reverse }.compile Sample.registry =
        .ok Sample.grouper ∧
      Sample.plan.schema? "clicks" = some Sample.clicks ∧
      { Sample.job with sortBy := " " }.compile Sample.registry = .error (.plan .blankSortBy) ∧
      (Error.plan .blankSortBy).isConfiguration = true := by
  have hread : Sample.job.ReadAs Sample.registry Sample.draft
      ⟨[Sample.byUser, Sample.bySource], by decide⟩ := by
    refine ⟨by decide, ?_, rfl, ?_, ?_⟩
    · cbv
    · exact .cons ⟨rfl, by decide⟩ (.cons ⟨rfl, by decide⟩ .nil)
    · exact .cons ⟨rfl, by cbv⟩ .nil
  have hbuild : Sample.draft.build = .ok Sample.plan :=
    Plan.Draft.build_eq_ok_iff.mpr ⟨by cbv, rfl, rfl⟩
  have hcompile : Sample.job.compile Sample.registry = .ok Sample.grouper :=
    compile_eq_ok_iff.mpr ⟨_, _, hread, hbuild, by cbv, by decide⟩
  obtain ⟨-, -, hsound, horder⟩ := compile_sound Sample.job Sample.registry
  obtain ⟨schema, hschema, hfound, -⟩ := (hsound _ hcompile).schemas _ (.tail _ (.head _))
  have hclicks : schema = Sample.clicks := Except.ok.inj (hschema.symm.trans (by decide))
  have hblank : { Sample.job with sortBy := " " }.compile Sample.registry =
      .error (.plan .blankSortBy) := by rfl
  refine ⟨hcompile, (horder _ (List.reverse_perm _) _).mpr hcompile, hclicks ▸ hfound, hblank, ?_⟩
  exact ((compile_sound _ _).1 _ hblank).1

end JobConfig

end RecordRollup
