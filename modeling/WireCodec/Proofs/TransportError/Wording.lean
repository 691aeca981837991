import WireCodec.Proofs.Binary64.ReadBack
import WireCodec.Proofs.Text.Scalars
import WireCodec.TransportError.Wire

/-!
# The wording of refusals

Why a payload is no transport error is said in words, numbers and quoted texts, and so without surrogates, whatever
the payload holds (`PayloadFault.isScalar_message`).
-/

namespace WireCodec

/-! ### Errors in documents -/

theorem DecodeError.isScalar_message (e : DecodeError) : e.message.IsScalar := by
  unfold message
  split <;> simp

namespace Json

private theorem Fault.isScalar_wording (f : Fault) : f.wording.IsScalar := by
  cases f <;> simp [wording]

theorem DocumentError.isScalar_message (e : DocumentError) : e.message.IsScalar := by
  cases e with
  | encoding e => exact e.isScalar_message
  | text e =>
    show (ReadError.message e).IsScalar
    unfold ReadError.message
    split <;> simp [Fault.isScalar_wording, Position.wording]

end Json

/-! ### Values in messages -/

theorem Binary64.isScalar_toText (x : Binary64) : x.toText.IsScalar := by
  cases x with
  | finite negative m e hm =>
    obtain ⟨n, hspells, -, -⟩ := Binary64.exists_spells_toText (x := .finite negative m e hm) trivial
    refine Text.isScalar_of_val_lt fun c hc => ?_
    rcases hspells.val_of_mem hc with hdigit | hval
    · have hdigit := CodePoint.isDigit_iff.1 hdigit
      omega
    · omega
  | infinite negative => exact Text.isScalar_ofString _
  | nan => exact Text.isScalar_ofString _

namespace Json

private theorem isScalar_displayItems {items : List Json} (h : ∀ v ∈ items, v.display.IsScalar) :
    (displayItems items).IsScalar := by
  induction items with
  | nil => nofun
  | cons item rest ih =>
    have hrest := ih fun v hv => h v (List.mem_cons_of_mem _ hv)
    simp [displayItems, h item List.mem_cons_self, hrest]

private theorem isScalar_displayMembers {members : Members} (h : ∀ m ∈ members, m.2.display.IsScalar) :
    (displayMembers members).IsScalar := by
  induction members with
  | nil => nofun
  | cons m rest ih =>
    obtain ⟨name, v⟩ := m
    have hv : v.display.IsScalar := h (name, v) List.mem_cons_self
    have hrest := ih fun p hp => h p (List.mem_cons_of_mem _ hp)
    simp [displayMembers, hv, hrest]

/-- A value is shown without surrogates, whatever texts are in it. -/
theorem isScalar_display (v : Json) : v.display.IsScalar := by
  induction v using Json.induct with
  | null => exact Text.isScalar_ofString _
  | bool b => exact Text.isScalar_ofString _
  | int n => exact Text.isScalar_ofInt n
  | float x => exact x.isScalar_toText
  | str t => exact Text.isScalar_quoted t
  | arr items ih =>
    cases items with
    | nil => exact Text.isScalar_ofString _
    | cons item rest =>
      have hrest := isScalar_displayItems fun v hv => ih v (List.mem_cons_of_mem item hv)
      simp [display, ih item List.mem_cons_self, hrest]
  | obj members ih =>
    cases members with
    | nil => exact Text.isScalar_ofString _
    | cons m rest =>
      obtain ⟨name, v⟩ := m
      have hv : v.display.IsScalar := ih (name, v) List.mem_cons_self
      have hrest := isScalar_displayMembers fun p hp => ih p (List.mem_cons_of_mem (name, v) hp)
      simp [display, hv, hrest]

end Json

theorem PayloadFault.isScalar_message (f : PayloadFault) : f.message.IsScalar := by
  cases f with
  | unreadable e => simp [message, e.isScalar_message]
  | codeNotInteger v => simp [message, v.isScalar_display]
  | _ => simp [message]

end WireCodec
