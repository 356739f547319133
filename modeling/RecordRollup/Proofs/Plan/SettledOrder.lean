import Mathlib
import RecordRollup.Proofs.Plan.KeyReading
import RecordRollup.Proofs.Plan.LongerCriteria
import RecordRollup.Proofs.StableSort

/-!
Comparisons of any bytes, among them such as were never written of a record. As far as they answer they
are a preorder. Sorting takes a failure for a tie, and with such ties they are none: a buffer that cannot
be read ties with all others, also with those that differ from each other.
-/

namespace RecordRollup

/-- A comparison that may fail, and that is a preorder as far as it answers. -/
structure Preorders {α : Type} (compare : α → α → Except Error Ordering) : Prop where
  swap : ∀ {left right outcome}, compare left right = .ok outcome →
    compare right left = .ok outcome.swap
  trans : ∀ {first middle last lower upper}, compare first middle = .ok lower →
    compare middle last = .ok upper → lower ≠ .gt → upper ≠ .gt →
      compare first last = .ok (lower.then upper)

namespace Preorders

variable {α β : Type} {compare : α → α → Except Error Ordering} {items : List α}

theorem of_transCmp {cmp : α → α → Ordering} [Std.TransCmp cmp] :
    Preorders fun left right => .ok (cmp left right) where
  swap := by
    rintro left right outcome ⟨⟩
    exact congrArg Except.ok Std.OrientedCmp.eq_swap
  trans := by
    rintro first middle last lower upper ⟨⟩ ⟨⟩ hlower hupper
    exact congrArg Except.ok (compare_eq_then hlower hupper)

theorem onPart (horder : Preorders compare) (part : β → α) :
    Preorders fun left right => compare (part left) (part right) where
  swap := horder.swap
  trans := horder.trans

theorem apply (horder : Preorders compare) (direction : Direction) :
    Preorders fun left right => (compare left right).map direction.apply where
  swap := by
    intro left right outcome houtcome
    obtain ⟨ascending, hascending, rfl⟩ := map_eq_ok_iff.mp houtcome
    refine map_eq_ok_iff.mpr ⟨ascending.swap, horder.swap hascending, ?_⟩
    cases direction <;> rfl
  trans := by
    intro first middle last lower upper hlower hupper hlowerUp hupperUp
    obtain ⟨below, hbelow, rfl⟩ := map_eq_ok_iff.mp hlower
    obtain ⟨above, habove, rfl⟩ := map_eq_ok_iff.mp hupper
    cases direction with
    | ascending =>
        exact map_eq_ok_iff.mpr ⟨_, horder.trans hbelow habove hlowerUp hupperUp, rfl⟩
    | descending =>
        have hacross := horder.swap
          (horder.trans (horder.swap habove) (horder.swap hbelow) hupperUp hlowerUp)
        refine map_eq_ok_iff.mpr ⟨_, hacross, ?_⟩
        cases below <;> cases above <;> simp_all [Direction.apply]

section Settled

variable (horder : Preorders compare)

include horder

theorem settled_swap (left right : α) :
    settled (compare right left) = (settled (compare left right)).swap := by
  cases hforth : compare left right with
  | ok outcome => rw [horder.swap hforth, settled, settled]
  | error error =>
      cases hback : compare right left with
      | error error => rfl
      | ok outcome =>
          rw [horder.swap hback] at hforth
          cases hforth

theorem settled_self (item : α) : settled (compare item item) = .eq := by
  have hswap := horder.settled_swap item item
  cases hsettled : settled (compare item item) with
  | eq => rfl
  | lt | gt =>
      rw [hsettled] at hswap
      cases hswap

theorem preordersOn (hanswers : ∀ left ∈ items, ∀ right ∈ items,
      ∃ outcome, compare left right = .ok outcome) : PreordersOn compare items where
  answers := hanswers
  swap _ _ _ _ _ := horder.swap
  trans _ _ _ _ _ _ _ _ := horder.trans

theorem exists_sortBy (hanswers : ∀ left ∈ items, ∀ right ∈ items,
      ∃ outcome, compare left right = .ok outcome) :
    ∃ sorted, sortBy compare items = .ok sorted ∧
      ∀ others, IsStableSort compare items others ↔ others = sorted := by
  have hitems := horder.preordersOn hanswers
  refine ⟨_, sortBy_eq_ok hanswers, fun others => ⟨fun hothers => ?_, ?_⟩⟩
  · exact hitems.eq_of_isStableSort hothers (isStableSort_sortedSoFar hitems)
  · rintro rfl
    exact isStableSort_sortedSoFar hitems

end Settled

end Preorders

theorem Comparator.preorders_ofContent (compareContent : Bytes → Bytes → Ordering)
    [Std.TransCmp compareContent] : Preorders (ofContent compareContent).compareBytes :=
  Preorders.of_transCmp

/-- How far a comparison has come, seen from the other buffer. -/
def Progress.swap (progress : Progress) : Progress :=
  ⟨progress.right, progress.left, progress.source⟩

/-- Three comparisons of three buffers with each other have come equally far in each of them. -/
def Progress.Meet (lower upper across : Progress) : Prop :=
  lower.right = upper.left ∧ lower.source = upper.source ∧
    across = ⟨lower.left, upper.right, lower.source⟩

namespace SortKey

variable {key : SortKey} {left right first middle last : Bytes} {outcome lower upper : Ordering}
  {progress next below above across belowNext aboveNext : Progress}

theorem preorders_orderRead
    (hkey : ∀ named ∈ key.comparator, Preorders named.comparator.compareBytes) :
    Preorders key.orderRead := by
  cases hcomparator : key.comparator with
  | none =>
      have hread : key.orderRead = fun left right : Value.Key =>
          (Except.ok (Ord.compare left right) : Except Error Ordering).map key.direction.apply := by
        funext left right
        simp only [orderRead, hcomparator]
      rw [hread]
      exact Preorders.of_transCmp.apply key.direction
  | some named =>
      have hread : key.orderRead = fun left right : Value.Key =>
          (named.comparator.compareBytes left.content right.content).map key.direction.apply := by
        funext left right
        simp only [orderRead, hcomparator]
      rw [hread]
      exact ((hkey named hcomparator).onPart Value.Key.content).apply key.direction

variable (horder : Preorders key.orderRead)

include horder

theorem orderNext_swap (hnext : key.orderNext left right progress = .ok (outcome, next)) :
    ∃ other, key.orderNext right left progress.swap = .ok (outcome.swap, other) ∧
      (outcome = .eq → other = next.swap) := by
  obtain ⟨leftRead, leftUsed, rightRead, rightUsed, hleft, hright, hread, rfl⟩ :=
    orderNext_eq_ok_iff.mp hnext
  refine ⟨_, orderNext_eq_ok_iff.mpr ⟨rightRead, rightUsed, leftRead, leftUsed, hright, hleft,
    horder.swap hread, rfl⟩, ?_⟩
  rintro rfl
  rw [Progress.swap, Progress.swap, sourceRead_eq_of_tie hread]

theorem orderNext_trans (hmeet : Progress.Meet below above across)
    (hlower : key.orderNext first middle below = .ok (lower, belowNext))
    (hupper : key.orderNext middle last above = .ok (upper, aboveNext)) (hlowerUp : lower ≠ .gt)
    (hupperUp : upper ≠ .gt) :
    ∃ acrossNext, key.orderNext first last across = .ok (lower.then upper, acrossNext) ∧
      (lower = .eq → Progress.Meet belowNext aboveNext acrossNext) := by
  obtain ⟨firstRead, firstUsed, middleRead, middleUsed, hfirst, hmiddle, hlowerRead, rfl⟩ :=
    orderNext_eq_ok_iff.mp hlower
  obtain ⟨otherRead, otherUsed, lastRead, lastUsed, hother, hlast, hupperRead, rfl⟩ :=
    orderNext_eq_ok_iff.mp hupper
  obtain ⟨hposition, hsource, rfl⟩ := hmeet
  rw [hposition] at hmiddle
  cases hmiddle.symm.trans hother
  refine ⟨_, orderNext_eq_ok_iff.mpr ⟨firstRead, firstUsed, lastRead, lastUsed, hfirst, hlast,
    horder.trans hlowerRead hupperRead hlowerUp hupperUp, rfl⟩, ?_⟩
  rintro rfl
  refine ⟨?_, ?_, rfl⟩
  · rw [hposition]
  · rw [sourceRead_eq_of_tie hlowerRead, hsource]

end SortKey

section Along

variable {keys : List SortKey} {left right first middle last : Bytes}
  {outcome lower upper : Ordering}
  {progress next below above across belowNext aboveNext : Progress}
  (horder : ∀ key ∈ keys, Preorders key.orderRead)

include horder

theorem compareBytesAlong_swap
    (houtcome : compareBytesAlong left right keys progress = .ok (outcome, next)) :
    ∃ other, compareBytesAlong right left keys progress.swap = .ok (outcome.swap, other) ∧
      (outcome = .eq → other = next.swap) := by
  induction keys generalizing progress with
  | nil =>
      cases houtcome
      exact ⟨_, rfl, fun _ => rfl⟩
  | cons key keys ih =>
      rw [List.forall_mem_cons] at horder
      rcases compareBytesAlong_cons_eq_ok_iff.mp houtcome with ⟨here, hhere, hrest⟩ | ⟨hhere, hdiffer⟩
      · obtain ⟨other, hother, htie⟩ := SortKey.orderNext_swap horder.1 hhere
        obtain rfl := htie rfl
        obtain ⟨stop, hstop, hstopTie⟩ := ih horder.2 hrest
        exact ⟨stop, compareBytesAlong_cons_eq_ok_iff.mpr (.inl ⟨_, hother, hstop⟩), hstopTie⟩
      · obtain ⟨other, hother, htie⟩ := SortKey.orderNext_swap horder.1 hhere
        refine ⟨other, compareBytesAlong_cons_eq_ok_iff.mpr (.inr ⟨hother, ?_⟩), htie⟩
        simpa using hdiffer

theorem compareBytesAlong_trans (hmeet : Progress.Meet below above across)
    (hlower : compareBytesAlong first middle keys below = .ok (lower, belowNext))
    (hupper : compareBytesAlong middle last keys above = .ok (upper, aboveNext))
    (hlowerUp : lower ≠ .gt) (hupperUp : upper ≠ .gt) :
    ∃ acrossNext, compareBytesAlong first last keys across = .ok (lower.then upper, acrossNext) ∧
      (lower.then upper = .eq → Progress.Meet belowNext aboveNext acrossNext) := by
  induction keys generalizing below above across with
  | nil =>
      cases hlower
      cases hupper
      exact ⟨across, rfl, fun _ => hmeet⟩
  | cons key keys ih =>
      rw [List.forall_mem_cons] at horder
      rcases compareBytesAlong_cons_eq_ok_iff.mp hlower with
        ⟨belowHere, hlowerHere, hlowerRest⟩ | ⟨hlowerHere, hlowerDiffer⟩
      · rcases compareBytesAlong_cons_eq_ok_iff.mp hupper with
          ⟨aboveHere, hupperHere, hupperRest⟩ | ⟨hupperHere, hupperDiffer⟩
        · obtain ⟨acrossHere, hacross, hmeetHere⟩ := SortKey.orderNext_trans horder.1 hmeet
            hlowerHere hupperHere (by decide) (by decide)
          obtain ⟨acrossNext, hrest, hmeetNext⟩ := ih horder.2 (hmeetHere rfl) hlowerRest hupperRest
          exact ⟨acrossNext, compareBytesAlong_cons_eq_ok_iff.mpr (.inl ⟨_, hacross, hrest⟩),
            hmeetNext⟩
        · obtain rfl : upper = .lt := by cases upper <;> simp_all
          obtain ⟨acrossNext, hacross, -⟩ := SortKey.orderNext_trans horder.1 hmeet
            hlowerHere hupperHere (by decide) (by decide)
          have hless : lower.then .lt = .lt := by cases lower <;> simp_all
          rw [hless]
          exact ⟨acrossNext, compareBytesAlong_cons_eq_ok_iff.mpr (.inr ⟨hacross, by decide⟩),
            by simp⟩
      · obtain rfl : lower = .lt := by cases lower <;> simp_all
        have hupperHere : ∃ here aboveHere, key.orderNext middle last above = .ok (here, aboveHere) ∧
            here ≠ .gt := by
          rcases compareBytesAlong_cons_eq_ok_iff.mp hupper with ⟨aboveHere, hhere, -⟩ | ⟨hhere, -⟩
          · exact ⟨.eq, aboveHere, hhere, by decide⟩
          · exact ⟨upper, aboveNext, hhere, hupperUp⟩
        obtain ⟨here, aboveHere, hhere, hhereUp⟩ := hupperHere
        obtain ⟨acrossNext, hacross, -⟩ := SortKey.orderNext_trans horder.1 hmeet
          hlowerHere hhere (by decide) hhereUp
        exact ⟨acrossNext, compareBytesAlong_cons_eq_ok_iff.mpr (.inr ⟨hacross, by simp⟩), by simp⟩

end Along

namespace Plan

variable {plan : Plan} {left right : Bytes}

theorem preorders_tieKeys {source : Option Int32} {keys : List SortKey}
    (hkeys : plan.tieKeys? source = some keys) : ∀ key ∈ keys, Preorders key.orderRead := by
  intro key hkey
  apply SortKey.preorders_orderRead
  rw [plain_of_tieKeys? hkeys key hkey]
  rintro named ⟨⟩

theorem compareBytes_nil (plan : Plan) (buffer : Bytes) :
    (∃ error, plan.compareBytes [] buffer = .error error) ∧
      ∃ error, plan.compareBytes buffer [] = .error error := by
  obtain ⟨key, keys, hkeys⟩ := List.exists_cons_of_ne_nil plan.consistent.keys_ne_nil
  obtain ⟨error, hread⟩ := key.readAt_nil
  rw [compareBytes_eq, compareBytes_eq, hkeys, compareBytesAlong_cons, compareBytesAlong_cons,
    SortKey.orderNext_eq, SortKey.orderNext_eq, hread]
  refine ⟨⟨error, rfl⟩, ?_⟩
  cases key.readAt buffer 0 with
  | error first => exact ⟨first, rfl⟩
  | ok result => exact ⟨error, rfl⟩

/-- Settled outcomes are not transitive under any plan that tells two buffers apart. -/
theorem not_transitive_of_gt (hgreater : plan.compareBytes left right = .ok .gt) :
    ¬ ∀ first middle last, settled (plan.compareBytes first middle) ≠ .gt →
      settled (plan.compareBytes middle last) ≠ .gt →
        settled (plan.compareBytes first last) ≠ .gt := by
  obtain ⟨-, below, hbelow⟩ := plan.compareBytes_nil left
  obtain ⟨⟨above, habove⟩, -⟩ := plan.compareBytes_nil right
  intro htrans
  apply htrans left [] right
  · rw [hbelow, settled]
    decide
  · rw [habove, settled]
    decide
  · rw [hgreater, settled]

theorem preorders_compareBytes (hordered : ∀ key ∈ plan.keys, ∀ named ∈ key.comparator,
    Preorders named.comparator.compareBytes) : Preorders plan.compareBytes where
  swap := by
    intro left right outcome houtcome
    have hkeys := fun key hkey => SortKey.preorders_orderRead (hordered key hkey)
    rw [compareBytes_eq_ok_iff] at houtcome ⊢
    obtain ⟨common, next, hcommon, hrest⟩ := houtcome
    obtain ⟨other, hother, htied⟩ := compareBytesAlong_swap hkeys hcommon
    refine ⟨common.swap, other, hother, ?_⟩
    rcases hrest with ⟨hdiffer, rfl⟩ | ⟨rfl, keys, stop, hfound, hspecific⟩
    · exact .inl ⟨by simpa using hdiffer, rfl⟩
    · obtain rfl := htied rfl
      obtain ⟨otherStop, hspecificOther, -⟩ :=
        compareBytesAlong_swap (preorders_tieKeys hfound) hspecific
      exact .inr ⟨rfl, keys, otherStop, hfound, hspecificOther⟩
  trans := by
    intro first middle last lower upper hlower hupper hlowerUp hupperUp
    have hkeys := fun key hkey => SortKey.preorders_orderRead (hordered key hkey)
    rw [compareBytes_eq_ok_iff] at hlower hupper ⊢
    obtain ⟨below, belowNext, hbelow, hlowerRest⟩ := hlower
    obtain ⟨above, aboveNext, habove, hupperRest⟩ := hupper
    have hcommonUp : ∀ {common outcome : Ordering} {tied : Prop},
        (common ≠ .eq ∧ outcome = common ∨ common = .eq ∧ tied) → outcome ≠ .gt →
          common ≠ .gt := by
      rintro common outcome tied (⟨-, rfl⟩ | ⟨rfl, -⟩) hup
      · exact hup
      · decide
    obtain ⟨acrossNext, hacross, hmeet⟩ := compareBytesAlong_trans hkeys ⟨rfl, rfl, rfl⟩
      hbelow habove (hcommonUp hlowerRest hlowerUp) (hcommonUp hupperRest hupperUp)
    refine ⟨_, _, hacross, ?_⟩
    rcases hlowerRest with ⟨hbelowDiffer, rfl⟩ | ⟨rfl, keys, lowerStop, hfound, hlowerTied⟩
    · obtain rfl : lower = .lt := by cases lower <;> simp_all
      exact .inl ⟨by simp, by simp⟩
    · rcases hupperRest with ⟨haboveDiffer, rfl⟩ | ⟨rfl, others, upperStop, hothers, hupperTied⟩
      · obtain rfl : upper = .lt := by cases upper <;> simp_all
        exact .inl ⟨by simp, by cases lower <;> simp_all⟩
      · have hmeetTied := hmeet rfl
        obtain ⟨-, hsource, hacrossNext⟩ := hmeet rfl
        rw [← hsource, hfound] at hothers
        cases hothers
        obtain ⟨stop, htied, -⟩ := compareBytesAlong_trans (preorders_tieKeys hfound) hmeetTied
          hlowerTied hupperTied hlowerUp hupperUp
        exact .inr ⟨rfl, keys, stop, by rw [hacrossNext, hfound], htied⟩

/-- Sorting settles failed comparisons as ties. The settled outcome turns round with the buffers, and a
buffer ties with itself. Steps that do not go down make one that does not, if both of them answer; where
all pairs do, sorting gives the one stable sort; and its error is that of comparing two of the buffers. -/
theorem settled_preorder (plan : Plan) :
    ((∀ key ∈ plan.keys, ∀ named ∈ key.comparator, Preorders named.comparator.compareBytes) →
      (∀ left right, settled (plan.compareBytes right left) =
        (settled (plan.compareBytes left right)).swap) ∧
      (∀ buffer, settled (plan.compareBytes buffer buffer) = .eq) ∧
      (∀ first middle last lower upper, plan.compareBytes first middle = .ok lower →
        plan.compareBytes middle last = .ok upper → lower ≠ .gt → upper ≠ .gt →
          plan.compareBytes first last = .ok (lower.then upper)) ∧
      ∀ buffers, (∀ left ∈ buffers, ∀ right ∈ buffers,
          ∃ outcome, plan.compareBytes left right = .ok outcome) →
        ∃ sorted, plan.sortSerialized buffers = .ok sorted ∧
          ∀ others, IsStableSort plan.compareBytes buffers others ↔ others = sorted) ∧
    ∀ buffers error, plan.sortSerialized buffers = .error error →
      ∃ left ∈ buffers, ∃ right ∈ buffers, plan.compareBytes left right = .error error := by
  constructor
  · intro hordered
    have horder := preorders_compareBytes hordered
    refine ⟨horder.settled_swap, horder.settled_self, ?_, ?_⟩
    · exact fun _ _ _ _ _ => horder.trans
    · exact fun buffers => horder.exists_sortBy
  · exact fun _ _ => exists_of_sortBy_eq_error

end Plan

namespace Sample

theorem countPlan_plain : ∀ key ∈ countPlan.keys, key.comparator = none := by
  have hkeys : countPlan.keys = [⟨byCount, .int32⟩] := by cbv
  rw [hkeys]
  simp [byCount]

theorem pagePlan_preorders : ∀ key ∈ pagePlan.keys, ∀ named ∈ key.comparator,
    Preorders named.comparator.compareBytes :=
  forall_pageComparator (fun comparator _ => Preorders comparator.compareBytes)
    (Comparator.preorders_ofContent _)

end Sample

namespace Plan

theorem settled_preorder_tallies :
    settled (Sample.pagePlan.compareBytes [0, 0, 0, 1, 5, 97]
        [0, 0, 0, 1, 1, 97, 3, 116, 104, 101]) = .eq ∧
      settled (Sample.pagePlan.compareBytes [0, 0, 0, 1, 1, 97, 3, 116, 104, 101]
        [0, 0, 0, 1, 5, 97]) = .eq ∧
      ∃ sorted, Sample.pagePlan.sortSerialized
        [[0, 0, 0, 1, 1, 97, 3, 116, 104, 101], [0, 0, 0, 1, 1, 98, 3, 116, 104, 101]] =
          .ok sorted := by
  obtain ⟨hswap, -, -, hsorts⟩ :=
    (settled_preorder Sample.pagePlan).1 Sample.pagePlan_preorders
  have hcut : settled (Sample.pagePlan.compareBytes [0, 0, 0, 1, 5, 97]
      [0, 0, 0, 1, 1, 97, 3, 116, 104, 101]) = .eq := by
    rw [compareBytes, Sample.pagePlan_keys]
    rfl
  have hwhole : ∀ buffer ∈ [[0, 0, 0, 1, 1, 97, 3, 116, 104, 101],
      [0, 0, 0, 1, 1, 98, 3, 116, 104, 101]], ∃ record,
        Sample.pagePlan.serialize record = .ok buffer ∧ buffer.length < 2 ^ 63 := by
    intro buffer hbuffer
    rcases List.mem_pair.mp hbuffer with rfl | rfl
    · exact ⟨Sample.tally "a" 1, by cbv, by decide⟩
    · exact ⟨Sample.tally "b" 1, by cbv, by decide⟩
  refine ⟨hcut, by rw [hswap, hcut]; rfl, ?_⟩
  obtain ⟨sorted, hsorted, -⟩ := hsorts _ fun left hleft right hright => by
    obtain ⟨leftRecord, hleftBytes, hleftSize⟩ := hwhole left hleft
    obtain ⟨rightRecord, hrightBytes, hrightSize⟩ := hwhole right hright
    obtain ⟨outcome, -, houtcome⟩ := exists_compareBytes_serialize Sample.pagePlan_agrees
      hleftBytes hrightBytes hleftSize hrightSize
    exact ⟨outcome, houtcome⟩
  exact ⟨sorted, hsorted⟩

/-- Two tallies, one of which comes after the other, both tie with a buffer that cannot be read. -/
theorem settled_not_transitive :
    Sample.countDraft.build = .ok Sample.countPlan ∧
      (∀ key ∈ Sample.countPlan.keys, key.comparator = none) ∧
      Sample.countPlan.serialize (Sample.tally "a" 2) =
        .ok [0, 0, 0, 2, 3, 116, 104, 101, 1, 97] ∧
      Sample.countPlan.serialize (Sample.tally "a" 1) =
        .ok [0, 0, 0, 1, 3, 116, 104, 101, 1, 97] ∧
      ¬ ∀ first middle last, settled (Sample.countPlan.compareBytes first middle) ≠ .gt →
        settled (Sample.countPlan.compareBytes middle last) ≠ .gt →
          settled (Sample.countPlan.compareBytes first last) ≠ .gt := by
  have hgreater : Sample.countPlan.compareBytes [0, 0, 0, 2, 3, 116, 104, 101, 1, 97]
      [0, 0, 0, 1, 3, 116, 104, 101, 1, 97] = .ok .gt := by cbv
  exact ⟨Draft.build_eq_ok_iff.mpr ⟨by cbv, rfl, rfl⟩, Sample.countPlan_plain, by cbv, by cbv,
    not_transitive_of_gt hgreater⟩

end Plan

end RecordRollup
