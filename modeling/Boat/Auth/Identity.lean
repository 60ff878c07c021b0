import Boat.Auth.UseCases
import Boat.Core.Domain
import Boat.Json.Text
import Boat.Users.UseCases

/-!
# Identities

The identities that Firebase vouches for (`identity_providers/firebase.py`): the claims of a
verified token become an `ExternalIdentity` whose values are those of the module
(`auth/domain/value_objects.py`).

* Whatever the claims are, the identity is well formed, and its provider is one of the allowed ones
  (`verify_ok`);
* claims without such an identity are refused as `AuthenticationError` (`verify_error`).
-/

namespace Boat.Auth

/-! ## Values -/

/-- A text that is neither empty nor too long. -/
def boundedText (maxLength : ℕ) (field message value : String) : Validated String :=
  if value = "" ∨ maxLength < value.length then .error [⟨field, message⟩] else .ok value

/-- `Issuer(value)`. -/
def Issuer.create : String → Validated String := boundedText 50 "issuer" "인증 발급자가 올바르지 않습니다."

/-- `Subject(value)`. -/
def Subject.create : String → Validated String := boundedText 255 "subject" "외부 인증 식별자가 올바르지 않습니다."

/-- `Provider(value)`. -/
def Provider.create : String → Validated String := boundedText 50 "provider" "로그인 제공자가 올바르지 않습니다."

/-- `Email(value)`. -/
def Email.create (value : String) : Validated String :=
  if value = "" ∨ strip value ≠ value ∨ '@' ∉ value.toList ∨ 255 < value.length then
    .error [⟨"email", "이메일이 올바르지 않습니다."⟩]
  else .ok value

/-- What the values of an identity are checked for. -/
structure ExternalIdentity.WellFormed (identity : ExternalIdentity) : Prop where
  issuer : identity.issuer ≠ "" ∧ identity.issuer.length ≤ 50
  subject : identity.subject ≠ "" ∧ identity.subject.length ≤ 255
  provider : identity.provider ≠ "" ∧ identity.provider.length ≤ 50
  email : ∀ email ∈ identity.email, email ≠ "" ∧ strip email = email ∧ '@' ∈ email.toList ∧
    email.length ≤ 255

/-- `ExternalIdentity.create`: the details of all values that are invalid are collected. -/
def ExternalIdentity.create (id : UUID) (issuer subject provider : String)
    (email name : Option String) (emailVerified : Bool) : Except DomainError ExternalIdentity :=
  let details := (Issuer.create issuer).details ++ (Subject.create subject).details ++
    (Provider.create provider).details ++
    email.elim [] fun email => (Email.create email).details
  if details = [] then .ok ⟨id, issuer, subject, provider, email, emailVerified, name⟩
    else .error (.validation details)

theorem details_boundedText {maxLength : ℕ} {field message value : String} :
    (boundedText maxLength field message value).details = [] ↔ value ≠ "" ∧ value.length ≤
      maxLength := by
  rw [boundedText]
  split
  · next h => exact iff_of_false (List.cons_ne_nil _ _) fun ⟨hne,
      hle⟩ => h.elim hne (Nat.not_lt.2 hle)
  · next h => exact iff_of_true rfl ⟨fun h' => h (.inl h'), Nat.not_lt.1 fun h' => h (.inr h')⟩

theorem details_email {value : String} : (Email.create value).details = [] ↔
    value ≠ "" ∧ strip value = value ∧ '@' ∈ value.toList ∧ value.length ≤ 255 := by
  rw [Email.create]
  split
  · next h =>
    refine iff_of_false (List.cons_ne_nil _ _) fun ⟨hne, hstrip, hmem, hle⟩ => ?_
    rcases h with h | h | h | h
    · exact hne h
    · exact h hstrip
    · exact h hmem
    · exact Nat.not_lt.2 hle h
  · next h =>
    simp only [not_or, not_not, not_lt] at h
    exact iff_of_true rfl h

/-- An identity is created if all of its values are valid. -/
theorem ExternalIdentity.create_eq_ok {id : UUID} {issuer subject provider : String}
    {email name : Option String} {emailVerified : Bool} {identity : ExternalIdentity} :
    ExternalIdentity.create id issuer subject provider email name emailVerified = .ok identity ↔
      identity = ⟨id, issuer, subject, provider, email, emailVerified, name⟩ ∧
      identity.WellFormed := by
  have hdetails : (Issuer.create issuer).details ++ (Subject.create subject).details ++
      (Provider.create provider).details ++
        (email.elim [] fun email => (Email.create email).details) = [] ↔
        (⟨id, issuer, subject, provider, email, emailVerified, name⟩ :
          ExternalIdentity).WellFormed := by
    have hemail : (email.elim [] fun email => (Email.create email).details) = [] ↔
        ∀ e ∈ email, e ≠ "" ∧ strip e = e ∧ '@' ∈ e.toList ∧ e.length ≤ 255 := by
      cases email with
      | none => exact iff_of_true rfl fun _ h => nomatch h
      | some email => simp only [Option.elim_some, details_email, Option.mem_some_iff, forall_eq']
    simp only [List.append_eq_nil_iff, Issuer.create, Subject.create, Provider.create,
      details_boundedText, hemail]
    exact ⟨fun ⟨⟨⟨hi, hs⟩, hp⟩, he⟩ => ⟨hi, hs, hp, he⟩, fun ⟨hi, hs, hp, he⟩ => ⟨⟨⟨hi, hs⟩, hp⟩, he⟩⟩
  simp only [ExternalIdentity.create]
  split
  · next h =>
    refine ⟨fun heq => ?_, fun ⟨heq, _⟩ => heq ▸ rfl⟩
    cases heq
    exact ⟨rfl, hdetails.1 h⟩
  · next h =>
    refine iff_of_false (fun heq => nomatch heq) ?_
    rintro ⟨rfl, hwf⟩
    exact h (hdetails.2 hwf)

/-- A user may have the email of a well-formed identity. -/
theorem ExternalIdentity.WellFormed.validate {identity : ExternalIdentity} (h : identity.WellFormed) :
    identity.email.forM Users.Email.validate = .ok () := by
  rcases hemail : identity.email with - | email
  · rfl
  · obtain ⟨hne, hstrip, hmem, hle⟩ := h.email email hemail
    refine if_neg ?_
    rintro (h | h | h | h)
    · exact hne h
    · exact h hstrip
    · exact h hmem
    · exact Nat.not_lt.2 hle h

/-! ## Claims -/

/-- The claims of a token. -/
abbrev Claims := List (String × Json)

/-- `FirebaseIdentityMapping`: where the claims have what. -/
structure FirebaseIdentityMapping where
  uidClaim : String := "uid"
  subjectClaim : String := "sub"
  emailClaim : String := "email"
  emailVerifiedClaim : String := "email_verified"
  nameClaim : String := "name"
  namespaceClaim : String := "firebase"
  signInProviderClaim : String := "sign_in_provider"
  providerNormalizationMap : List (String × String) :=
    [("google.com", "google"), ("apple.com", "apple")]

namespace FirebaseIdentityMapping

/-- `_string_claim`. -/
def stringClaim (claims : Claims) (key : String) : Option String :=
  match claims.lookup key with
  | some (.str value) => if value = "" then none else some value
  | _ => none

variable (mapping : FirebaseIdentityMapping) (claims : Claims)

/-- `subject_from`. -/
def subjectFrom : Option String :=
  stringClaim claims mapping.uidClaim <|> stringClaim claims mapping.subjectClaim

/-- `email_from`. -/
def emailFrom : Option String := stringClaim claims mapping.emailClaim

/-- `email_verified_from`. -/
def emailVerifiedFrom : Bool :=
  match claims.lookup mapping.emailVerifiedClaim with
  | some (.bool b) => b
  | _ => false

/-- `name_from`. -/
def nameFrom : Option String := stringClaim claims mapping.nameClaim

/-- `raw_provider_from`. -/
def rawProviderFrom : Option String :=
  match claims.lookup mapping.namespaceClaim with
  | some (.obj namespaceClaims) => stringClaim namespaceClaims mapping.signInProviderClaim
  | _ => none

/-- `normalize_provider`. -/
def normalizeProvider (rawProvider : String) : Option String :=
  mapping.providerNormalizationMap.lookup rawProvider

end FirebaseIdentityMapping

namespace FirebaseExternalIdentityVerifier

/-- `_to_external_identity`. -/
def toExternalIdentity (mapping : FirebaseIdentityMapping) (id : UUID) (claims : Claims) :
    Except DomainError ExternalIdentity :=
  match mapping.subjectFrom claims with
  | none => .error .authentication
  | some subject =>
    match mapping.rawProviderFrom claims with
    | none => .error .authentication
    | some rawProvider =>
      match mapping.normalizeProvider rawProvider with
      | none => .error .authentication
      | some provider =>
        match ExternalIdentity.create id provider subject provider
          ((mapping.emailFrom claims).map strip)
          (mapping.nameFrom claims) (mapping.emailVerifiedFrom claims) with
        | .ok identity => .ok identity
        | .error _ => .error .authentication

/-- `verify`, of the claims that `verify_id_token` returns: none if it raises a `FirebaseError`. -/
def verify (mapping : FirebaseIdentityMapping) (id : UUID)
    (claims : Option Claims) : Except DomainError ExternalIdentity :=
  match claims with
  | none => .error .authentication
  | some claims => toExternalIdentity mapping id claims

variable (mapping : FirebaseIdentityMapping) (id : UUID) in
/-- Claims are those of an identity, or they are refused. -/
theorem toExternalIdentity_cases (claims : Claims) :
    toExternalIdentity mapping id claims = .error .authentication ∨
    ∃ subject rawProvider provider, mapping.subjectFrom claims = some subject ∧
      mapping.rawProviderFrom claims = some rawProvider ∧
      mapping.normalizeProvider rawProvider = some provider ∧
      ∃ identity : ExternalIdentity,
      identity = ⟨id, provider, subject, provider, (mapping.emailFrom claims).map strip,
        mapping.emailVerifiedFrom claims, mapping.nameFrom claims⟩ ∧ identity.WellFormed ∧
        toExternalIdentity mapping id claims = .ok identity := by
  rw [toExternalIdentity]
  rcases hsubject : mapping.subjectFrom claims with - | subject
  · exact .inl rfl
  rcases hraw : mapping.rawProviderFrom claims with - | rawProvider
  · exact .inl rfl
  dsimp only
  rcases hprovider : mapping.normalizeProvider rawProvider with - | provider
  · exact .inl rfl
  dsimp only
  rcases hcreate :
    ExternalIdentity.create id provider subject provider ((mapping.emailFrom claims).map strip)
      (mapping.nameFrom claims) (mapping.emailVerifiedFrom claims) with e | identity
  · exact .inl rfl
  · obtain ⟨heq, hwf⟩ := ExternalIdentity.create_eq_ok.1 hcreate
    exact .inr ⟨subject, rawProvider, provider, rfl, rfl, hprovider, identity, heq, hwf, rfl⟩

variable {mapping : FirebaseIdentityMapping} {id : UUID} {claims : Option Claims}

theorem verify_error {e : DomainError} (h : verify mapping id claims = .error e) :
    e = .authentication := by
  rcases claims with - | claims
  · cases h
    rfl
  · rcases toExternalIdentity_cases mapping id claims with hcases
      | ⟨_, _, _, _, _, _, _, _, _, hcases⟩
    · cases hcases.symm.trans h
      rfl
    · cases hcases.symm.trans h

/-- The identity is well formed, and of a provider that is allowed. -/
theorem verify_ok {identity : ExternalIdentity} (h : verify mapping id claims = .ok identity) :
    identity.WellFormed ∧ identity.issuer = identity.provider ∧
      ∃ rawProvider, mapping.normalizeProvider rawProvider = some identity.provider := by
  rcases claims with - | claims
  · cases h
  · rcases toExternalIdentity_cases mapping id claims with hcases |
      ⟨_, rawProvider, _, _, _, hprovider, identity', heq, hwf, hcases⟩
    · cases hcases.symm.trans h
    · cases hcases.symm.trans h
      subst heq
      exact ⟨hwf, rfl, rawProvider, hprovider⟩

end FirebaseExternalIdentityVerifier

end Boat.Auth
