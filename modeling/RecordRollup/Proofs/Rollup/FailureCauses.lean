import Mathlib
import RecordRollup.Proofs.Plan.Comparability
import RecordRollup.Proofs.Rollup.BrokenStream
import RecordRollup.Proofs.Rollup.Elements

namespace RecordRollup.Rollup

open Play

variable {σ α β : Type} {allowed : Error → Prop}

/-- A part of a run fails for an allowed error, or for the one that its last callback has returned.
-/
def FailsFor (allowed : Error → Prop) (play : Play (σ × List Reply) α) : Prop :=
  ∀ state error, (play state).outcome = .error error →
    allowed error ∨ ∃ event, (play state).state.2.getLast? = some ⟨event, some error⟩

namespace FailsFor

theorem pure (value : α) : FailsFor allowed (pure value : Play (σ × List Reply) α) := by
  rintro state error ⟨⟩

theorem fail {error : Error} (herror : allowed error) :
    FailsFor allowed (fail error : Play (σ × List Reply) α) := by
  rintro state other ⟨⟩
  exact .inl herror

theorem say (event : Event) : FailsFor allowed (say event : Play (σ × List Reply) Unit) := by
  rintro state error ⟨⟩

theorem change (step : σ × List Reply → (σ × List Reply) × α) :
    FailsFor allowed (change step) := by
  rintro state error ⟨⟩

theorem bind {play : Play (σ × List Reply) α} {next : α → Play (σ × List Reply) β}
    (hplay : FailsFor allowed play) (hnext : ∀ value, FailsFor allowed (next value)) :
    FailsFor allowed (play >>= next) := by
  intro state error herror
  cases houtcome : (play state).outcome with
  | error other =>
      rw [bind_of_error houtcome] at herror ⊢
      cases herror
      exact hplay state error houtcome
  | ok value =>
      rw [bind_of_ok houtcome] at herror ⊢
      exact hnext value _ error herror

theorem forM {γ : Type} (items : List γ) {play : γ → Play (σ × List Reply) Unit}
    (hplay : ∀ item ∈ items, FailsFor allowed (play item)) :
    FailsFor allowed (items.forM play) := by
  induction items with
  | nil => exact .pure ()
  | cons item items ih =>
      have hrest := ih fun other hother => hplay other (List.mem_cons_of_mem item hother)
      exact .bind (hplay item List.mem_cons_self) fun _ => hrest

theorem call (event : Event) (callback : σ → σ × Option Error) :
    FailsFor allowed (call event (noting event callback)) := by
  rintro ⟨state, replies⟩ error herror
  cases hfailure : (noting event callback (state, replies)).2 with
  | none =>
      rw [call_of_none event hfailure] at herror
      cases herror
  | some failure =>
      rw [call_of_some event hfailure] at herror ⊢
      cases herror
      have hcallback : (callback state).2 = some error := hfailure
      refine .inr ⟨event, ?_⟩
      rw [noting, hcallback, List.getLast?_concat]

end FailsFor

section Run

variable {grouper : Grouper} {handler : Handler σ}

theorem failsFor_openFrom (level : Nat) (first : Record) :
    FailsFor allowed (openFrom grouper handler.noted level first) :=
  .forM _ fun (depth, field) _ => .call _ (handler.opened depth field first)

theorem failsFor_closeTo (level : Nat) (last : Record) :
    FailsFor allowed (closeTo grouper handler.noted level last) :=
  .forM _ fun (depth, field) _ => .call _ (handler.closed depth field last)

theorem failsFor_leave (last : Option Record) : FailsFor allowed (leave handler.noted last) :=
  .call _ (handler.left last)

theorem failsFor_give (record : Record) : FailsFor allowed (give handler.noted record) := by
  refine .bind (.say _) fun _ => ?_
  refine .bind (.change _) fun _ => ?_
  refine .bind (.change _) fun wants => ?_
  cases wants with
  | true => exact .pure _
  | false => exact .bind (failsFor_leave _) fun _ => .pure _

theorem failsFor_enter (first : Record) : FailsFor allowed (enter grouper handler.noted first) := by
  refine .bind (.say _) fun _ => ?_
  refine .bind (.change _) fun _ => ?_
  refine .bind (.change _) fun wants => ?_
  cases wants with
  | true => exact failsFor_give first
  | false => exact .bind (failsFor_leave _) fun _ => .bind (.say _) fun _ => .pure _

theorem failsFor_conclude (last : Record) (reading : Bool) :
    FailsFor allowed (conclude handler.noted last reading) := by
  cases reading with
  | false => exact .pure ()
  | true =>
      refine .bind (.say _) fun _ => ?_
      refine .bind (.change _) fun again => ?_
      exact .bind (.forM _ fun event _ => .say event) fun _ => failsFor_leave _

section Shared

variable (hshared : ∀ left right error,
  grouper.sharedFields left right = .error error → allowed error)

include hshared

theorem failsFor_advance (stage : Stage) {item : Except Error Record}
    (hitem : ∀ error, item = .error error → allowed error) :
    FailsFor allowed (advance grouper handler.noted stage item) := by
  cases stage with
  | start =>
      cases item with
      | error error => exact .fail (hitem error rfl)
      | ok first => exact .bind (failsFor_openFrom _ _) fun _ => failsFor_enter first
  | inside last reading =>
      cases item with
      | error error => exact .bind (failsFor_conclude _ _) fun _ => .fail (hitem error rfl)
      | ok next =>
          rw [advance]
          cases hfields : grouper.sharedFields last next with
          | error error =>
              exact .bind (failsFor_conclude _ _) fun _ => .fail (hshared _ _ _ hfields)
          | ok shared =>
              dsimp only
              split
              · cases reading with
                | true => exact failsFor_give next
                | false => exact .bind (.say _) fun _ => .pure _
              · refine .bind (failsFor_conclude _ _) fun _ => ?_
                refine .bind (.say _) fun _ => ?_
                refine .bind (failsFor_closeTo _ _) fun _ => ?_
                exact .bind (failsFor_openFrom _ _) fun _ => failsFor_enter next

theorem failsFor_runFrom (stage : Stage) {stream : List (Except Error Record)}
    (hstream : ∀ error, .error error ∈ stream → allowed error) :
    FailsFor allowed (runFrom grouper handler.noted stage stream) := by
  induction stream generalizing stage with
  | nil =>
      refine .bind (.say _) fun _ => ?_
      cases stage with
      | start => exact .pure ()
      | inside last reading => exact .bind (failsFor_conclude _ _) fun _ => failsFor_closeTo _ _
  | cons item rest ih =>
      have hitem : ∀ error, item = .error error → allowed error := by
        rintro error rfl
        exact hstream error List.mem_cons_self
      have hrest := fun stage => ih stage fun error hmem =>
        hstream error (List.mem_cons_of_mem item hmem)
      refine .bind (.say _) fun _ => ?_
      exact .bind (failsFor_advance hshared stage hitem) hrest

end Shared

theorem sharedFields_error {left right : Record} {error : Error}
    (herror : grouper.sharedFields left right = .error error) : ∃ fault, error = .field fault :=
  Plan.sharedKeys_error grouper.size_le herror

variable (grouper handler) in
/-- A run that fails does so for a field, or with an error of the stream, or with that of the
callback that was the last one to return. -/
theorem run_error (stream : List (Except Error Record)) (state : σ) (error : Error)
    (herror : (run grouper handler.noted stream (state, [])).outcome = .error error) :
    (∃ fault, error = .field fault) ∨ .error error ∈ stream ∨
      ∃ event, (run grouper handler.noted stream (state, [])).state.2.getLast? =
        some ⟨event, some error⟩ := by
  have hcauses : FailsFor (fun error => (∃ fault, error = .field fault) ∨ .error error ∈ stream)
      (run grouper handler.noted stream) :=
    failsFor_runFrom (fun _ _ _ hfields => .inl (sharedFields_error hfields)) .start
      fun _ hmem => .inr hmem
  rcases hcauses _ error herror with (hfield | hmem) | hreply
  · exact .inl hfield
  · exact .inr (.inl hmem)
  · exact .inr (.inr hreply)

theorem isChain_sharedFields {records : List Record}
    (hkeys : ∀ record ∈ records, grouper.plan.HasKeys record) :
    records.IsChain fun left right =>
      ∃ shared, grouper.sharedFields left right = .ok shared := by
  apply List.Pairwise.isChain
  apply List.pairwise_of_forall_mem_list
  intro left hleft right hright
  exact Plan.exists_sharedKeys (hkeys left hleft) (hkeys right hright) grouper.size_le

end Run

end RecordRollup.Rollup

namespace RecordRollup

/-- What was checked when a plan was built suffices: with records that the plan accepts, comparisons and
runs do not fail, unless a record leaves open which of several sources it is from. With any other records
only fields are at fault, next to the stream and the handler of a run. -/
theorem Plan.accepted_never_fails (plan : Plan) :
    (∀ left right leftSource rightSource,
      plan.sourceOf left = .ok leftSource → plan.sourceOf right = .ok rightSource →
        (∀ count ≤ plan.keys.length, ∃ shared, plan.sharedKeys left right count = .ok shared) ∧
        (plan.isMultiSource = false ∨ left.getNamed sourceFieldName ≠ .ok .null ∧
            right.getNamed sourceFieldName ≠ .ok .null →
          ∃ outcome, plan.compare left right = .ok outcome)) ∧
    (∀ left right error,
      (plan.compare left right = .error error → ∃ fault, error = .field fault) ∧
      ∀ count ≤ plan.keys.length, plan.sharedKeys left right count = .error error →
        ∃ fault, error = .field fault) ∧
    ∀ grouper : Grouper, grouper.plan = plan →
      ∀ {σ : Type} (handler : Rollup.Handler σ) (state : σ),
        (handler.NeverFails → ∀ records,
          (∀ record ∈ records, ∃ source, plan.sourceOf record = .ok source) →
            (Rollup.runRecords grouper handler records state).outcome = .ok ()) ∧
        ∀ stream,
          let played := Rollup.run grouper handler stream state
          (∃ replies,
            Rollup.run grouper handler.noted stream (state, []) =
              ⟨played.events, (played.state, replies), played.outcome⟩ ∧
            ∀ error, played.outcome = .error error →
              (∃ fault, error = .field fault) ∨ .error error ∈ stream ∨
                ∃ event, replies.getLast? = some ⟨event, some error⟩) ∧
          ∀ count, stream.length + 2 ≤ count →
            Rollup.rounds grouper handler count (.idle stream) =
              (do Rollup.run grouper handler stream; return .done) := by
  refine ⟨?_, ?_, ?_⟩
  · intro left right leftSource rightSource hleft hright
    have hleftKeys := hasKeys_of_sourceOf hleft
    have hrightKeys := hasKeys_of_sourceOf hright
    exact ⟨fun count hcount => exists_sharedKeys hleftKeys hrightKeys hcount,
      exists_compare hleft hright⟩
  · intro left right error
    exact ⟨compare_error, fun count hcount => sharedKeys_error hcount⟩
  · rintro grouper rfl σ handler state
    constructor
    · intro hnever records hsources
      apply Rollup.outcome_runRecords hnever
      apply Rollup.isChain_sharedFields
      intro record hrecord
      obtain ⟨source, hsource⟩ := hsources record hrecord
      exact hasKeys_of_sourceOf hsource
    · intro stream played
      refine ⟨?_, fun count hcount => Rollup.rounds_eq_run stream hcount⟩
      obtain ⟨replies, hnoted, -⟩ : ∃ replies,
          Rollup.run grouper handler.noted stream (state, []) =
            ⟨played.events, (played.state, replies), played.outcome⟩ ∧ _ :=
        Rollup.exists_replies stream state
      refine ⟨replies, hnoted, ?_⟩
      intro error herror
      have hcauses := Rollup.run_error grouper handler stream state error
      rw [hnoted] at hcauses
      exact hcauses herror

namespace Sample

theorem exists_sourceOf {record : Record} (hschema : record.schema = clicks)
    (hid : ∀ id ∈ record.sourceId?, id = -3) : ∃ source, plan.sourceOf record = .ok source := by
  have hsources : plan.sources.map (fun source => (source.id, source.schema)) =
      [(-3, clicks), (7, orders)] := by cbv
  have hmem : (-3, clicks) ∈ plan.sources.map fun source => (source.id, source.schema) := by
    rw [hsources]
    exact List.mem_cons_self
  obtain ⟨source, hsource, heq⟩ := List.mem_map.mp hmem
  obtain ⟨hsourceId, hsourceSchema⟩ := Prod.mk.inj heq
  refine ⟨source, Plan.sourceOf_eq_ok_iff.mpr ⟨hsource, hsourceSchema.trans hschema.symm, ?_⟩⟩
  intro id hmem
  rw [hid id hmem, hsourceId]

theorem exists_sourceOf_click (user : String) (time : Int64) :
    ∃ source, plan.sourceOf (click user time) = .ok source := by
  have hsourceId : (click user time).sourceId? = some (-3) := by cbv
  apply exists_sourceOf rfl
  rw [hsourceId]
  rintro id ⟨⟩
  rfl

end Sample

theorem Plan.accepted_never_fails_clicks :
    (∃ outcome, Sample.plan.compare (Sample.click "Ann" 5) (Sample.click "ann" 4) = .ok outcome) ∧
      (∃ shared, Sample.plan.sharedKeys (Sample.click "Ann" 5) (.blank Sample.clicks) 2 =
        .ok shared) ∧
      (∃ fault, Sample.plan.compare (.blank Sample.clicks) (.blank Sample.clicks) =
        .error (.field fault)) ∧
      (Rollup.runRecords Sample.grouper (Sample.taking 1) Sample.clickStream 0).outcome = .ok () ∧
      (Rollup.rounds Sample.grouper (Sample.taking 5) 6 (.idle Sample.brokenStream) 0).outcome =
        .error (.decoding .noSource) := by
  obtain ⟨haccepted, hrejected, hruns⟩ := accepted_never_fails Sample.plan
  obtain ⟨left, hleft⟩ := Sample.exists_sourceOf_click "Ann" 5
  obtain ⟨right, hright⟩ := Sample.exists_sourceOf_click "ann" 4
  obtain ⟨blank, hblank⟩ : ∃ source, Sample.plan.sourceOf (.blank Sample.clicks) = .ok source := by
    have hsourceId : (Record.blank Sample.clicks).sourceId? = none := by cbv
    apply Sample.exists_sourceOf rfl
    rw [hsourceId]
    rintro id ⟨⟩
  refine ⟨?_, ?_, ?_, ?_, ?_⟩
  · obtain ⟨-, hcompare⟩ := haccepted _ _ _ _ hleft hright
    have hset : ∀ user time,
        (Sample.click user time).getNamed sourceFieldName = .ok (.int (-3)) := by
      intro user time
      cbv
    apply hcompare
    rw [hset, hset]
    exact .inr ⟨by decide, by decide⟩
  · obtain ⟨hshared, -⟩ := haccepted _ _ _ _ hleft hblank
    exact hshared 2 Sample.grouper.size_le
  · cases hcompare : Sample.plan.compare (.blank Sample.clicks) (.blank Sample.clicks) with
    | ok outcome =>
        have hfails : (Sample.plan.compare (.blank Sample.clicks) (.blank Sample.clicks)).isOk =
          false := by cbv
        rw [hcompare] at hfails
        cases hfails
    | error error =>
        obtain ⟨fault, rfl⟩ := (hrejected _ _ error).1 hcompare
        exact ⟨fault, rfl⟩
  · obtain ⟨hfine, -⟩ := hruns Sample.grouper rfl (Sample.taking 1) 0
    apply hfine (Sample.taking_neverFails 1)
    intro record hrecord
    simp only [Sample.clickStream, List.mem_cons, List.not_mem_nil, or_false] at hrecord
    rcases hrecord with rfl | rfl | rfl <;> exact Sample.exists_sourceOf_click _ _
  · obtain ⟨-, hstreams⟩ := hruns Sample.grouper rfl (Sample.taking 5) 0
    obtain ⟨-, hrounds⟩ := hstreams Sample.brokenStream
    rw [hrounds 6 (by decide)]
    cbv

end RecordRollup
