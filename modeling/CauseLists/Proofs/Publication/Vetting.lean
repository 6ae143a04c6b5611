-- What a submission has passed when it is committed: each stage in turn, with what it looked at.
import CauseLists.Proofs.Envelope.Acceptance
import CauseLists.Proofs.Results
import CauseLists.Proofs.RuleSet.Registry
import CauseLists.Publication.Service

namespace CauseLists

/-! ## Single stages -/

namespace RuleSet

theorem judge_eq_ok_iff (s : RuleSet) (mode : Mode) (document : Json) :
    s.judge mode document = .ok () ↔ s.check mode document = [] := by
  unfold judge
  split
  · simp [*]
  · rename_i hsome
    constructor
    · rintro ⟨⟩
    · intro hnone
      exact absurd hnone hsome

theorem judgeBody_eq_ok_iff (s : RuleSet) (mode : Mode) (body : Bytes) (document : Json) :
    s.judgeBody mode body = .ok document ↔
      Json.parse body = .ok document ∧ s.check mode document = [] := by
  unfold judgeBody
  cases Json.parse body with
  | error e => simp
  | ok parsed =>
    dsimp only
    rw [map_eq_ok_iff, Except.ok.injEq]
    constructor
    · rintro ⟨⟨⟩, hjudge, rfl⟩
      exact ⟨rfl, (judge_eq_ok_iff s mode parsed).mp hjudge⟩
    · rintro ⟨rfl, hcheck⟩
      exact ⟨(), (judge_eq_ok_iff s mode parsed).mpr hcheck, rfl⟩

end RuleSet

/-! ## All stages -/

namespace Service

variable {ε : Type} {s : Service ε} {identity : String} {body : Bytes} {e : SubmittedEnvelope}
  {strict : Bool} {envelope : Envelope}

/-- A submission passes vetting exactly if it passes every stage. -/
theorem vet_eq_ok_iff : s.vet identity body e strict = .ok envelope ↔
    s.authorize identity e = .ok () ∧ s.policy.accept e = .ok envelope ∧
      ∃ rules document, s.registry.get? envelope.listType = some rules ∧
        Json.parse body = .ok document ∧ rules.check (Mode.ofFlag strict) document = [] := by
  simp only [vet, bind_eq_ok_iff, mapError_eq_ok_iff, pure_eq_ok_iff, Registry.rulesFor_eq_ok_iff,
    RuleSet.judgeBody_eq_ok_iff]
  constructor
  · rintro ⟨⟨⟩, hauthorize, accepted, haccept, rules, hrules, document, hbody, rfl⟩
    exact ⟨hauthorize, haccept, rules, document, hrules, hbody⟩
  · rintro ⟨hauthorize, haccept, rules, document, hrules, hbody⟩
    exact ⟨(), hauthorize, envelope, haccept, rules, hrules, document, hbody, rfl⟩

/-- The list type that authorization looks at is that of the accepted envelope. -/
theorem allows_of_authorize (hauthorize : s.authorize identity e = .ok ())
    (haccept : s.policy.accept e = .ok envelope) :
    s.authorizer.allows identity envelope.listType = true := by
  obtain ⟨-, -, -, -, -, -, -, hlist, -⟩ := EnvelopePolicy.accept_eq_ok_iff.mp haccept
  obtain ⟨raw, hraw, hparse⟩ := EnvelopePolicy.listType_eq_ok_iff.mp hlist
  unfold authorize at hauthorize
  rw [hraw, Option.bind_some, hparse, Except.toOption] at hauthorize
  dsimp only at hauthorize
  split at hauthorize
  · assumption
  · cases hauthorize

/-- No stage of the vetting looks at the stores. -/
theorem vet_error {err : PublicationError} (h : s.vet identity body e strict = .error err)
    (reason : StorageError) : err ≠ .storage reason := by
  rintro rfl
  simp only [vet, bind_eq_error_iff, mapError_eq_error_iff] at h
  rcases h with h | ⟨⟨⟩, -, h⟩
  · unfold authorize at h
    split at h
    · cases h
    · split at h <;> cases h
  · rcases h with ⟨report, -, h⟩ | ⟨accepted, -, h⟩
    · cases h
    · rcases h with ⟨report, -, h⟩ | ⟨rules, -, h⟩
      · cases h
      · rcases h with ⟨report, -, h⟩ | ⟨document, -, h⟩ <;> cases h

end Service

end CauseLists
