import Boat.Notifications.Due

/-!
# Notifications: rendered texts

The texts of the notification of a warranty: the templates of the rule, with the name of the
item for every marker, cut so that the text is not too long. They are valid unless the name is
cut after white space at the end of the text (`warranty_deliverable`).
-/

namespace Boat

/-- The characters of the name of an item that fit in for each marker of a template. -/
def itemNameRoom (template : String) (maxLength : ℕ) : ℕ :=
  let markerCount := Text.count itemNameMarker template.toList
  (maxLength - (template.length - markerCount * itemNameMarker.length)) / markerCount

/-- The template ends in a marker, and the name of the item is cut there after white space. -/
def CutAfterSpace (template itemName : String) (maxLength : ℕ) : Prop :=
  Text.EndsIn itemNameMarker template.toList ∧
    ∃ c ∈ (itemName.toList.take (itemNameRoom template maxLength)).getLast?, isSpace c

instance (template itemName : String) (maxLength : ℕ) :
    Decidable (CutAfterSpace template itemName maxLength) :=
  decidable_of_iff (Text.EndsIn itemNameMarker template.toList ∧
    (itemName.toList.take (itemNameRoom template maxLength)).getLast?.any isSpace = true)
    (by simp [CutAfterSpace, Option.any_eq_true])

theorem itemNameMarker_ne_nil : itemNameMarker ≠ [] := by decide

variable {maxLength n : ℕ}

theorem Text.toList_ne_nil (t : Text n) : t.value.toList ≠ [] :=
  fun h => t.ne_empty (String.toList_eq_nil_iff.1 h)

/-- The room for the name is what the code computes, and leaves at least the length of the marker. -/
theorem itemNameRoom_spec (template : Text maxLength)
    (hcount : 0 < Text.count itemNameMarker template.value.toList) :
    let fixed := (Text.replace itemNameMarker [] template.value.toList).length
    let count := Text.count itemNameMarker template.value.toList
    (max (((maxLength : ℤ) - fixed) / count) 0).toNat = itemNameRoom template.value maxLength ∧
      0 < itemNameRoom template.value maxLength ∧
        fixed + count * itemNameRoom template.value maxLength ≤ maxLength := by
  intro fixed count
  have hlen : template.value.length = fixed + count * itemNameMarker.length := by
    rw [← String.length_toList]
    exact Text.length_eq itemNameMarker_ne_nil
  have hle := template.length_le
  have hroom : itemNameRoom template.value maxLength = (maxLength - fixed) / count := by
    rw [itemNameRoom, hlen, Nat.add_sub_cancel]
  rw [hroom]
  have hmul : count * ((maxLength - fixed) / count) ≤ maxLength - fixed := Nat.mul_div_le _ _
  refine ⟨?_, ?_, by omega⟩
  · have hcast : ((maxLength : ℤ) - fixed) / count = ((maxLength - fixed) / count : ℕ) := by
      rw [Int.natCast_ediv, Int.ofNat_sub (by omega)]
    rw [hcast]
    omega
  · refine Nat.div_pos ?_ hcount
    have : count * 1 ≤ count * itemNameMarker.length := Nat.mul_le_mul_left _ (by decide)
    omega

/-- A rendered text is neither empty nor too long, and white space is at its end only where the
    name is cut. -/
theorem renderNotificationText_spec (template : Text maxLength) (itemName : Text n) :
    let text := renderNotificationText template.value itemName.value maxLength
    text ≠ "" ∧ text.length ≤ maxLength ∧
      (strip text = text ↔ ¬CutAfterSpace template.value itemName.value maxLength) := by
  have hs := strip_eq_self_iff.1 template.stripped
  by_cases hcount : Text.count itemNameMarker template.value.toList = 0
  · -- There is no marker: the text is the template.
    simp only [renderNotificationText, hcount, if_true]
    refine ⟨template.ne_empty, template.length_le, iff_of_true template.stripped fun hcut => ?_⟩
    exact absurd hcut.1.1 (by omega)
  · obtain ⟨hroom, hpos, hlen⟩ := itemNameRoom_spec template (Nat.pos_of_ne_zero hcount)
    simp only [renderNotificationText, hcount, if_false, hroom]
    -- What is put in begins as the name does.
    obtain ⟨a, name, hname⟩ := List.exists_cons_of_ne_nil itemName.toList_ne_nil
    have hn := strip_eq_self_iff.1 itemName.stripped
    generalize hnew : itemName.value.toList.take (itemNameRoom template.value maxLength) = new at *
    have hhead : new.head? = itemName.value.toList.head? := by
      rw [← hnew, hname, List.take_cons hpos]
      rfl
    have hne : new ≠ [] := by
      rintro rfl
      rw [hname] at hhead
      cases hhead
    have hle : new.length ≤ itemNameRoom template.value maxLength := hnew ▸ List.length_take_le ..
    have hlength : (Text.replace itemNameMarker new template.value.toList).length ≤ maxLength := by
      rw [Text.length_replace]
      exact (Nat.add_le_add_left (Nat.mul_le_mul_left _ hle) _).trans hlen
    have hhead' : ∀ c ∈ (Text.replace itemNameMarker new template.value.toList).head?,
        isSpace c = false := by
      rcases Text.head?_replace (s := template.value.toList) itemNameMarker_ne_nil hne with h | h
      · rw [h]
        exact hs.1
      · rw [h, hhead]
        exact hn.1
    have hne' : Text.replace itemNameMarker new template.value.toList ≠ [] := by
      intro h
      rcases Text.head?_replace (s := template.value.toList) itemNameMarker_ne_nil hne with h' | h'
      · rw [h] at h'
        exact template.toList_ne_nil (List.head?_eq_none_iff.1 h'.symm)
      · rw [h] at h'
        exact hne (List.head?_eq_none_iff.1 h'.symm)
    obtain ⟨hends, hends'⟩ :=
      Text.getLast?_replace (s := template.value.toList) itemNameMarker_ne_nil hne
    refine ⟨fun h => hne' ?_, ?_, ?_⟩
    · rw [← String.toList_ofList (l := Text.replace _ _ _), h]
      rfl
    · rw [String.length_ofList]
      exact hlength
    · rw [strip_eq_self_iff, String.toList_ofList, CutAfterSpace, hnew]
      by_cases he : Text.EndsIn itemNameMarker template.value.toList
      · rw [hends he]
        constructor
        · rintro ⟨-, h⟩ ⟨-, c, hc, hspace⟩
          rw [h c hc] at hspace
          cases hspace
        · intro h
          exact ⟨hhead', fun c hc => Bool.eq_false_iff.2 fun hspace => h ⟨he, c, hc, hspace⟩⟩
      · rw [hends' he]
        exact iff_of_true ⟨hhead', hs.2⟩ fun h => he h.1

/-- The metadata of the notification of a warranty is valid. -/
theorem metadata_valid (itemName : Text 255) (subCategory : Option (VarChar 100)) :
    (NotificationMetadata.create
      (("productName", itemName.value) ::
        (subCategory.map fun s => ("subCategory", s.value)).toList)).isOk := by
  have hname : NotificationMetadata.validateItem ("productName", itemName.value) = .ok () :=
    NotificationMetadata.validateItem_ok (by decide) (itemName.length_le.trans (by decide))
  rw [NotificationMetadata.isOk_create, NotificationMetadata.validate]
  rcases subCategory with - | s
  · simp [hname]
  · have hsub : NotificationMetadata.validateItem ("subCategory", s.value) = .ok () :=
      NotificationMetadata.validateItem_ok (by decide) (s.length_le.trans (by decide))
    simp [hname, hsub, bind, Except.bind, pure, Except.pure]

/-- The notification of a warranty can be created, unless a text of it ends in the name of the
    item cut after white space. -/
theorem warranty_deliverable {due : DueNotificationRule}
    (hkind : due.rule.targetKind = .warrantyReceipt) (userId receiptId : UUID) (itemName : Text 255)
    (subCategory : Option (VarChar 100)) (createdAt : Instant) (id : UUID) :
    (UserNotification.create
      (warrantyExpiryNotification due userId receiptId itemName subCategory).command
      createdAt id).isOk ↔
    ¬CutAfterSpace due.rule.titleTemplate.value itemName.value NotificationTitle.maxLength ∧
      ¬CutAfterSpace due.rule.bodyTemplate.value itemName.value NotificationMessage.maxLength := by
  obtain ⟨ht₁, ht₂, ht₃⟩ := renderNotificationText_spec due.rule.titleTemplate itemName
  obtain ⟨hm₁, hm₂, hm₃⟩ := renderNotificationText_spec due.rule.bodyTemplate itemName
  have hmeta := metadata_valid itemName subCategory
  rw [UserNotification.isOk_create]
  simp only [warrantyExpiryNotification, hkind, deliveryContractFor, NotificationTitle.create,
    NotificationMessage.create, Text.isOk_create]
  have hkindOk : (NotificationKind.create "warranty_expiry").isOk := by decide
  have htype : (Option.mapM ResourceType.create (some "receipt")).isOk := by decide
  have hpair : (validateResourcePair (some "receipt") (some receiptId)).isOk := rfl
  constructor
  · rintro ⟨-, ⟨-, ht, -⟩, ⟨-, hm, -⟩, -⟩
    exact ⟨ht₃.1 ht, hm₃.1 hm⟩
  · rintro ⟨ht, hm⟩
    exact ⟨hkindOk, ⟨ht₁, ht₃.2 ht, ht₂⟩, ⟨hm₁, hm₃.2 hm, hm₂⟩, htype, hpair, hmeta⟩

/-- The title is the name of the item. -/
def itemNameRule : NotificationScheduleRule where
  campaignKey := ⟨"warranty_risk_d7", by decide, by decide, by decide⟩
  enabled := true
  targetKind := .warrantyReceipt
  dayOffset := some 7
  firstDelayDays := none
  repeatIntervalDays := none
  lookbackDays := none
  sendTimeLocal := .min
  requiresMarketingConsent := false
  titleTemplate := ⟨"[기기명]", by decide, by decide, by decide⟩
  bodyTemplate := ⟨"[기기명] 보증이 7일 남았어요.", by decide, by decide, by decide⟩
  dayOffset_valid := by decide
  firstDelayDays_valid := validateOptionalNonNegative_none "firstDelayDays"
  repeatIntervalDays_valid := validateOptionalNonNegative_none "repeatIntervalDays"
  lookbackDays_valid := validateOptionalNonNegative_none "lookbackDays"
  timing_valid := by decide
  consent_valid := validateEngagementConsent_warrantyReceipt false

def itemNameDue : DueNotificationRule := ⟨itemNameRule, ⟨739806, by decide, by decide⟩⟩

/-- A name with white space as its hundredth character. -/
def longItemName : Text 255 :=
  ⟨String.ofList (List.replicate 99 'A' ++ " B".toList), by decide +kernel, by decide +kernel, by
    decide +kernel⟩

theorem warranty_deliverable_shortName :
    (UserNotification.create (warrantyExpiryNotification itemNameDue (.ofNat 1) (.ofNat 2)
      ⟨"노트북 15", by decide, by decide, by decide⟩ none).command 0 (.ofNat 3)).isOk :=
  (warranty_deliverable (rfl : itemNameDue.rule.targetKind = .warrantyReceipt) _ _ _ _ _ _).2
    ⟨by decide +kernel, by decide +kernel⟩

/-- A rule that is accepted, and the name of an item, whose notification is refused. -/
theorem warranty_undeliverable :
    NotificationScheduleRule.create "warranty_risk_d7" true "warranty_receipt"
      (some 7) none none none .min false
      "[기기명]" "[기기명] 보증이 7일 남았어요." = .ok itemNameRule ∧
    UserNotification.create
      (warrantyExpiryNotification itemNameDue (.ofNat 1) (.ofNat 2) longItemName none).command
      0 (.ofNat 3) = .error (.validation [⟨"title", "알림 제목이 올바르지 않습니다."⟩]) := by
  decide +kernel

end Boat
