import Anemoi.Policy.Eviction
import Anemoi.Systems.Ranking

/-!
# The partition and the ranking of an eviction plan

Every occurrence of a resident gets one verdict, and the plan lists it under that verdict
with one reason. The candidates are ranked by a total preorder. It ties the same model on
two runtimes with equal idle times, and there the order of the input shows.
-/

namespace Anemoi

open Systems

/-! ### Verdicts -/

inductive EvictionVerdict where
  | candidate
  | protected_
  | blocked
  deriving DecidableEq, Repr

/-- What policy says about a resident. -/
def EvictionCandidateResident.verdict (resident : EvictionCandidateResident) (force : Bool) :
    EvictionVerdict :=
  if force then .candidate
  else if resident.keepHot ∨ resident.pinned then .protected_
  else if resident.state = .serving then .blocked
  else .candidate

/-- The codes of the reasons that are given for a verdict. -/
def EvictionVerdict.codes : EvictionVerdict → List String
  | .candidate => ["eviction.candidate"]
  | .protected_ => ["eviction.protected.keep_hot", "eviction.protected.pinned"]
  | .blocked => ["eviction.blocked.serving"]

/-- A reason that gives the verdict on a resident and names its model. -/
structure Explains (force : Bool) (resident : EvictionCandidateResident)
    (reason : DecisionReason) : Prop where
  code : reason.code ∈ (resident.verdict force).codes
  detail : ∃ rest, reason.detail = toString resident.modelId ++ rest
  impact : reason.impact = 0

namespace EvictionCandidateResident

def toCandidate (resident : EvictionCandidateResident) : EvictionCandidate where
  modelId := resident.modelId
  runtimeId := resident.runtimeId
  idleSecs := resident.idleSecs
  reason := "idle, unpinned resident eligible for eviction"

/-- The residents of a list with a given verdict, in order. -/
def withVerdict (verdict : EvictionVerdict) (residents : List EvictionCandidateResident)
    (force : Bool) : List EvictionCandidateResident :=
  residents.filter fun resident => resident.verdict force = verdict

theorem withVerdict_append (verdict : EvictionVerdict)
    (residents residents' : List EvictionCandidateResident) (force : Bool) :
    withVerdict verdict (residents ++ residents') force =
      withVerdict verdict residents force ++ withVerdict verdict residents' force :=
  List.filter_append residents residents'

theorem withVerdict_self (resident : EvictionCandidateResident) (force : Bool) :
    withVerdict (resident.verdict force) [resident] force = [resident] :=
  List.filter_cons_of_pos (decide_eq_true rfl)

theorem withVerdict_of_ne {resident : EvictionCandidateResident} {force : Bool}
    {verdict : EvictionVerdict} (h : resident.verdict force ≠ verdict) :
    withVerdict verdict [resident] force = [] :=
  List.filter_cons_of_neg (by simpa using h)

end EvictionCandidateResident

open EvictionCandidateResident

namespace EvictionPlan

/-- `next` is `plan` with more residents, each filed under its verdict with a reason. -/
structure Files (force : Bool) (residents : List EvictionCandidateResident)
    (plan next : EvictionPlan) : Prop where
  candidates : next.candidates =
    plan.candidates ++ (withVerdict .candidate residents force).map toCandidate
  protected_ : next.protected_.map ProtectedResident.modelId =
    plan.protected_.map ProtectedResident.modelId ++
      (withVerdict .protected_ residents force).map modelId
  blocked : next.blocked.map BlockedEviction.modelId =
    plan.blocked.map BlockedEviction.modelId ++
      (withVerdict .blocked residents force).map modelId
  reasons : ∃ reasons, next.reasons = plan.reasons ++ reasons ∧
    List.Forall₂ (Explains force) residents reasons

section Files

variable {force : Bool} {plan : EvictionPlan} {resident : EvictionCandidateResident}
  {residents residents' : List EvictionCandidateResident} {reason code rest : String}

theorem files_nil : Files force [] plan plan where
  candidates := (List.append_nil _).symm
  protected_ := (List.append_nil _).symm
  blocked := (List.append_nil _).symm
  reasons := ⟨[], (List.append_nil _).symm, .nil⟩

theorem Files.append {next last : EvictionPlan} (h : Files force residents plan next)
    (h' : Files force residents' next last) :
    Files force (residents ++ residents') plan last where
  candidates := by
    rw [h'.candidates, h.candidates, withVerdict_append, List.map_append, List.append_assoc]
  protected_ := by
    rw [h'.protected_, h.protected_, withVerdict_append, List.map_append, List.append_assoc]
  blocked := by
    rw [h'.blocked, h.blocked, withVerdict_append, List.map_append, List.append_assoc]
  reasons := by
    obtain ⟨reasons, heq, hall⟩ := h.reasons
    obtain ⟨reasons', heq', hall'⟩ := h'.reasons
    refine ⟨reasons ++ reasons', ?_, List.rel_append hall hall'⟩
    rw [heq', heq, List.append_assoc]

theorem files_protect (h : resident.verdict force = .protected_)
    (hcode : code ∈ EvictionVerdict.protected_.codes) :
    Files force [resident] plan ((plan.protect resident.modelId reason).explain code
      (toString resident.modelId ++ rest)) where
  candidates := by
    rw [withVerdict_of_ne (by rw [h]; exact nofun)]
    exact (List.append_nil _).symm
  protected_ := by
    rw [← h, withVerdict_self]
    exact List.map_append
  blocked := by
    rw [withVerdict_of_ne (by rw [h]; exact nofun)]
    exact (List.append_nil _).symm
  reasons := ⟨_, rfl, .cons ⟨by rw [h]; exact hcode, ⟨rest, rfl⟩, rfl⟩ .nil⟩

theorem files_block (h : resident.verdict force = .blocked)
    (hcode : code ∈ EvictionVerdict.blocked.codes) :
    Files force [resident] plan ((plan.block resident.modelId reason).explain code
      (toString resident.modelId ++ rest)) where
  candidates := by
    rw [withVerdict_of_ne (by rw [h]; exact nofun)]
    exact (List.append_nil _).symm
  protected_ := by
    rw [withVerdict_of_ne (by rw [h]; exact nofun)]
    exact (List.append_nil _).symm
  blocked := by
    rw [← h, withVerdict_self]
    exact List.map_append
  reasons := ⟨_, rfl, .cons ⟨by rw [h]; exact hcode, ⟨rest, rfl⟩, rfl⟩ .nil⟩

theorem files_propose (h : resident.verdict force = .candidate)
    (hcode : code ∈ EvictionVerdict.candidate.codes) :
    Files force [resident] plan ((plan.propose resident).explain code
      (toString resident.modelId ++ rest)) where
  candidates := by
    rw [← h, withVerdict_self]
    rfl
  protected_ := by
    rw [withVerdict_of_ne (by rw [h]; exact nofun)]
    exact (List.append_nil _).symm
  blocked := by
    rw [withVerdict_of_ne (by rw [h]; exact nofun)]
    exact (List.append_nil _).symm
  reasons := ⟨_, rfl, .cons ⟨by rw [h]; exact hcode, ⟨rest, rfl⟩, rfl⟩ .nil⟩

/-- One round files the resident under its verdict. -/
theorem files_consider (force : Bool) (plan : EvictionPlan)
    (resident : EvictionCandidateResident) :
    Files force [resident] plan (plan.consider force resident) := by
  unfold consider
  cases force with
  | true =>
      simp only [Bool.not_true, Bool.and_false, Bool.false_eq_true, ↓reduceIte]
      exact files_propose rfl (by decide)
  | false =>
      simp only [Bool.not_false, Bool.and_true]
      by_cases hkeep : resident.keepHot = true
      · rw [if_pos hkeep]
        exact files_protect (by simp [verdict, hkeep]) (by decide)
      · rw [if_neg hkeep]
        by_cases hpinned : resident.pinned = true
        · rw [if_pos hpinned]
          exact files_protect (by simp [verdict, hpinned]) (by decide)
        · rw [if_neg hpinned]
          by_cases hserving : resident.state = .serving
          · rw [if_pos (show resident.isServing = true from decide_eq_true hserving)]
            exact files_block (by simp [verdict, hkeep, hpinned, hserving]) (by decide)
          · rw [if_neg (by simpa [isServing] using hserving)]
            exact files_propose (by simp [verdict, hkeep, hpinned, hserving]) (by decide)

/-- The loop files every resident. -/
theorem files_foldl (force : Bool) (residents : List EvictionCandidateResident)
    (plan : EvictionPlan) : Files force residents plan (residents.foldl (consider force) plan) := by
  induction residents generalizing plan with
  | nil => exact files_nil
  | cons resident residents ih =>
      rw [List.foldl_cons]
      exact (files_consider force plan resident).append (ih _)

end Files

end EvictionPlan

/-! ### The ranking -/

/-- The ranking that eviction promises: known idle times first, the longest first, and
equal ones by the text of the model's id. -/
def RanksBefore (a b : EvictionCandidate) : Prop :=
  match a.idleSecs, b.idleSecs with
  | some x, some y => y < x ∨ x = y ∧ a.modelId.text ≤ b.modelId.text
  | some _, none => True
  | none, some _ => False
  | none, none => a.modelId.text ≤ b.modelId.text

theorem isLE_compare_text {s t : String} : (compare s t).isLE = true ↔ s ≤ t := by
  rw [Ordering.isLE_iff_ne_gt]
  exact compare_le_iff_le

theorem le_iff_ranksBefore {a b : EvictionCandidate} : a.le b = true ↔ RanksBefore a b := by
  unfold EvictionCandidate.le RanksBefore compareIdle
  cases a.idleSecs with
  | none =>
      cases b.idleSecs with
      | none => exact isLE_compare_text
      | some y => simp
  | some x =>
      cases b.idleSecs with
      | none => simp
      | some y =>
          dsimp only
          rcases hcompare : compare y x
          · have hlt : y < x := Std.compare_eq_lt.mp hcompare
            simp [hlt]
          · have heq : y = x := Std.LawfulEqCmp.eq_of_compare hcompare
            simp [heq, isLE_compare_text]
          · have hgt : x < y := Std.compare_eq_gt.mp hcompare
            simp [UInt64.not_lt.mpr (UInt64.le_of_lt hgt), UInt64.ne_of_lt hgt]

theorem ranksBefore_total (a b : EvictionCandidate) : RanksBefore a b ∨ RanksBefore b a := by
  unfold RanksBefore
  cases a.idleSecs with
  | none =>
      cases b.idleSecs with
      | none => exact le_total _ _
      | some y => exact Or.inr trivial
  | some x =>
      cases b.idleSecs with
      | none => exact Or.inl trivial
      | some y =>
          dsimp only
          rw [UInt64.lt_iff_toNat_lt, UInt64.lt_iff_toNat_lt, ← UInt64.toNat_inj,
            ← UInt64.toNat_inj]
          rcases lt_trichotomy x.toNat y.toNat with hlt | heq | hgt
          · exact Or.inr (Or.inl hlt)
          · rcases le_total a.modelId.text b.modelId.text with hle | hle
            · exact Or.inl (Or.inr ⟨heq, hle⟩)
            · exact Or.inr (Or.inr ⟨heq.symm, hle⟩)
          · exact Or.inl (Or.inl hgt)

theorem RanksBefore.trans {a b c : EvictionCandidate} (hab : RanksBefore a b)
    (hbc : RanksBefore b c) : RanksBefore a c := by
  unfold RanksBefore at *
  cases ha : a.idleSecs <;> cases hb : b.idleSecs <;> cases hc : c.idleSecs <;>
    simp only [ha, hb, hc] at hab hbc ⊢
  · exact hab.trans hbc
  · rw [UInt64.lt_iff_toNat_lt, ← UInt64.toNat_inj] at *
    rcases hab with hlt | ⟨heq, hle⟩
    · rcases hbc with hlt' | ⟨heq', -⟩
      · exact Or.inl (hlt'.trans hlt)
      · exact Or.inl (heq' ▸ hlt)
    · rcases hbc with hlt' | ⟨heq', hle'⟩
      · exact Or.inl (heq ▸ hlt')
      · exact Or.inr ⟨heq.trans heq', hle.trans hle'⟩

/-- Candidates tie exactly when model and idle time are the same. -/
theorem ranksBefore_antisymm_iff {a b : EvictionCandidate} :
    RanksBefore a b ∧ RanksBefore b a ↔ a.modelId = b.modelId ∧ a.idleSecs = b.idleSecs := by
  have htext : a.modelId = b.modelId ↔
      a.modelId.text ≤ b.modelId.text ∧ b.modelId.text ≤ a.modelId.text := by
    rw [← le_antisymm_iff]
    exact ⟨congrArg ModelId.text, congrArg ModelId.mk⟩
  rw [htext]
  unfold RanksBefore
  cases a.idleSecs with
  | none =>
      cases b.idleSecs with
      | none => simp only [and_true]
      | some y => simp
  | some x =>
      cases b.idleSecs with
      | none => simp
      | some y =>
          simp only [Option.some.injEq]
          rw [UInt64.lt_iff_toNat_lt, UInt64.lt_iff_toNat_lt, ← UInt64.toNat_inj,
            ← UInt64.toNat_inj]
          constructor
          · rintro ⟨hlt | ⟨heq, hle⟩, hlt' | ⟨heq', hle'⟩⟩
            · omega
            · omega
            · omega
            · exact ⟨⟨hle, hle'⟩, heq⟩
          · rintro ⟨⟨hle, hle'⟩, heq⟩
            exact ⟨Or.inr ⟨heq, hle⟩, Or.inr ⟨heq.symm, hle'⟩⟩

instance : Std.Total fun a b : EvictionCandidate => a.le b = true :=
  ⟨fun a b => by simpa only [le_iff_ranksBefore] using ranksBefore_total a b⟩

instance : IsTrans EvictionCandidate fun a b => a.le b = true :=
  ⟨fun _ _ _ hab hbc =>
    le_iff_ranksBefore.mpr ((le_iff_ranksBefore.mp hab).trans (le_iff_ranksBefore.mp hbc))⟩

/-! ### The plan -/

/-- Every occurrence is filed under one verdict with one reason, and the candidates are
ranked. -/
structure PartitionsAndRanks (residents : List EvictionCandidateResident) (force : Bool)
    (plan : EvictionPlan) : Prop where
  candidates : plan.candidates.Perm ((withVerdict .candidate residents force).map toCandidate)
  protected_ : plan.protected_.map ProtectedResident.modelId =
    (withVerdict .protected_ residents force).map modelId
  blocked : plan.blocked.map BlockedEviction.modelId =
    (withVerdict .blocked residents force).map modelId
  reasons : List.Forall₂ (Explains force) residents plan.reasons
  conserved : (plan.candidates.map EvictionCandidate.modelId ++
    plan.protected_.map ProtectedResident.modelId ++
    plan.blocked.map BlockedEviction.modelId).Perm (residents.map modelId)
  ranked : plan.candidates.Pairwise RanksBefore

theorem perm_withVerdict (residents : List EvictionCandidateResident) (force : Bool) :
    (withVerdict .candidate residents force ++ withVerdict .protected_ residents force ++
      withVerdict .blocked residents force).Perm residents := by
  induction residents with
  | nil => exact .nil
  | cons r residents ih =>
      rw [← List.singleton_append, withVerdict_append, withVerdict_append, withVerdict_append]
      cases hverdict : r.verdict force with
      | candidate =>
          rw [← hverdict, withVerdict_self, withVerdict_of_ne (by rw [hverdict]; exact nofun),
            withVerdict_of_ne (by rw [hverdict]; exact nofun), hverdict, List.nil_append,
            List.nil_append]
          exact ih.cons r
      | protected_ =>
          rw [← hverdict, withVerdict_self, withVerdict_of_ne (by rw [hverdict]; exact nofun),
            withVerdict_of_ne (by rw [hverdict]; exact nofun), hverdict, List.nil_append,
            List.nil_append]
          exact (List.perm_middle.append_right _).trans (ih.cons r)
      | blocked =>
          rw [← hverdict, withVerdict_self, withVerdict_of_ne (by rw [hverdict]; exact nofun),
            withVerdict_of_ne (by rw [hverdict]; exact nofun), hverdict, List.nil_append,
            List.nil_append]
          exact List.perm_middle.trans (ih.cons r)

/-- Planning partitions the residents by verdict and ranks the candidates. -/
theorem partitionsAndRanks_planEvictions (request : EvictionRequest) :
    PartitionsAndRanks request.residents request.force (planEvictions request) := by
  have hfiles := EvictionPlan.files_foldl request.force request.residents {}
  have hcandidates := hfiles.candidates
  have hprotected := hfiles.protected_
  have hblocked := hfiles.blocked
  obtain ⟨reasons, hreasons, hexplained⟩ := hfiles.reasons
  have hperm : (planEvictions request).candidates.Perm
      ((withVerdict .candidate request.residents request.force).map toCandidate) := by
    unfold planEvictions
    dsimp only
    rw [hcandidates]
    exact List.perm_insertionSort _ _
  have hids : ((withVerdict .candidate request.residents request.force).map toCandidate).map
      EvictionCandidate.modelId =
      (withVerdict .candidate request.residents request.force).map modelId := by
    rw [List.map_map]
    rfl
  refine ⟨hperm, hprotected, hblocked, ?_, ?_, ?_⟩
  · change List.Forall₂ _ _
      (request.residents.foldl (EvictionPlan.consider request.force) {}).reasons
    rw [hreasons]
    exact hexplained
  · change ((planEvictions request).candidates.map EvictionCandidate.modelId ++
      (request.residents.foldl (EvictionPlan.consider request.force) {}).protected_.map
        ProtectedResident.modelId ++
      (request.residents.foldl (EvictionPlan.consider request.force) {}).blocked.map
        BlockedEviction.modelId).Perm _
    rw [hprotected, hblocked]
    refine (((hperm.map _).append_right _).append_right _).trans ?_
    rw [hids]
    change (_ ++ List.map modelId _ ++ List.map modelId _).Perm _
    rw [← List.map_append, ← List.map_append]
    exact (perm_withVerdict request.residents request.force).map modelId
  · refine (List.pairwise_insertionSort (fun a b : EvictionCandidate => a.le b = true) _).imp ?_
    intro a b hle
    exact le_iff_ranksBefore.mp hle

/-! ### The order of the input -/

/-- The candidates do not depend on the order in which the residents are listed. -/
def OrderIndependent (residents : List EvictionCandidateResident) (force : Bool) : Prop :=
  ∀ residents', residents'.Perm residents →
    (planEvictions ⟨residents', force⟩).candidates = (planEvictions ⟨residents, force⟩).candidates

theorem candidates_planEvictions_eq (residents : List EvictionCandidateResident) (force : Bool) :
    (planEvictions ⟨residents, force⟩).candidates =
      ((withVerdict .candidate residents force).map toCandidate).insertionSort
        fun a b => a.le b := by
  have hfiles := EvictionPlan.files_foldl force residents {}
  unfold planEvictions
  dsimp only
  rw [hfiles.candidates]
  rfl

theorem candidates_cons_of_candidate {r : EvictionCandidateResident}
    {residents : List EvictionCandidateResident} {force : Bool}
    (h : r.verdict force = .candidate) :
    (planEvictions ⟨r :: residents, force⟩).candidates =
      (planEvictions ⟨residents, force⟩).candidates.orderedInsert (fun a b => a.le b)
        r.toCandidate := by
  rw [candidates_planEvictions_eq, candidates_planEvictions_eq, ← List.singleton_append,
    withVerdict_append, ← h, withVerdict_self, List.singleton_append, List.map_cons,
    List.insertionSort_cons]

/-- The ranking depends on the order of the input exactly when a model is up for eviction
on two runtimes with the same idle time. -/
theorem orderIndependent_iff (residents : List EvictionCandidateResident) (force : Bool) :
    OrderIndependent residents force ↔
      ∀ r ∈ residents, ∀ r' ∈ residents, r.verdict force = .candidate →
        r'.verdict force = .candidate → r.modelId = r'.modelId → r.idleSecs = r'.idleSecs →
        r.runtimeId = r'.runtimeId := by
  constructor
  · intro hsame r hr r' hr' hverdict hverdict' hmodel hidle
    by_contra hruntime
    have hne : r.toCandidate ≠ r'.toCandidate := fun heq =>
      hruntime (congrArg EvictionCandidate.runtimeId heq)
    have hr'' : r' ∈ residents.erase r :=
      (List.mem_erase_of_ne fun heq => hruntime (by rw [heq])).mpr hr'
    obtain ⟨hle, hle'⟩ := ranksBefore_antisymm_iff.mpr
      (show r.toCandidate.modelId = r'.toCandidate.modelId ∧
        r.toCandidate.idleSecs = r'.toCandidate.idleSecs from ⟨hmodel, hidle⟩)
    -- the two of them in front of the others, in either order
    have hperm : residents.Perm (r :: r' :: (residents.erase r).erase r') :=
      (List.perm_cons_erase hr).trans ((List.perm_cons_erase hr'').cons r)
    have heq := (hsame _ hperm.symm).trans
      (hsame _ (hperm.trans (.swap r' r _)).symm).symm
    rw [candidates_cons_of_candidate hverdict, candidates_cons_of_candidate hverdict',
      candidates_cons_of_candidate hverdict', candidates_cons_of_candidate hverdict] at heq
    have hcomm := orderedInsert_comm_ne (r := fun a b : EvictionCandidate => a.le b = true)
      (l := (planEvictions ⟨(residents.erase r).erase r', force⟩).candidates)
      (le_iff_ranksBefore.mpr hle) (le_iff_ranksBefore.mpr hle') hne
    exact hcomm heq
  · intro hseparated residents' hperm
    rw [candidates_planEvictions_eq, candidates_planEvictions_eq]
    refine insertionSort_eq_of_perm ((hperm.filter _).map _) fun a ha b hb hab hba => ?_
    obtain ⟨r, hr, rfl⟩ := List.mem_map.mp ha
    obtain ⟨r', hr', rfl⟩ := List.mem_map.mp hb
    obtain ⟨hmem, hverdict⟩ := List.mem_filter.mp hr
    obtain ⟨hmem', hverdict'⟩ := List.mem_filter.mp hr'
    obtain ⟨hmodel, hidle⟩ := ranksBefore_antisymm_iff.mp
      ⟨le_iff_ranksBefore.mp hab, le_iff_ranksBefore.mp hba⟩
    have hruntime := hseparated r (hperm.mem_iff.mp hmem) r' (hperm.mem_iff.mp hmem')
      (of_decide_eq_true hverdict) (of_decide_eq_true hverdict') hmodel hidle
    change r.modelId = r'.modelId at hmodel
    change r.idleSecs = r'.idleSecs at hidle
    unfold toCandidate
    rw [hmodel, hidle, hruntime]

/-- One model on two runtimes, idle for an unknown time on both. -/
def twoCopies : List EvictionCandidateResident :=
  [{ modelId := ⟨"qwen9b"⟩, runtimeId := ⟨"a"⟩, state := .hotGpu, keepHot := false
     pinned := false, idleSecs := none },
   { modelId := ⟨"qwen9b"⟩, runtimeId := ⟨"b"⟩, state := .hotGpu, keepHot := false
     pinned := false, idleSecs := none }]

theorem twoCopies_reversed :
    (twoCopies.map fun r => (r.runtimeId, r.modelId)).Nodup ∧
      twoCopies.reverse.Perm twoCopies ∧
      (planEvictions ⟨twoCopies.reverse, false⟩).candidates ≠
        (planEvictions ⟨twoCopies, false⟩).candidates := by
  refine ⟨by decide, List.reverse_perm _, by decide⟩

end Anemoi
