import Mathlib.Data.List.TakeWhile
import Spreadsheet.Proofs.Text

/-
  Blanks around a text.

  Trimming takes the blanks around a text away and leaves the text: a text is
  always its trimming with blanks around it (`isPadded_trim`), and blanks around
  a text make no difference to what trimming leaves (`IsPadded.trim_eq`).
-/

namespace Spreadsheet.Text

/-- Whether a text is the other one with blanks around it. -/
def IsPadded (t text : List Char) : Prop :=
  ∃ before after, text = before ++ (t ++ after) ∧ (∀ c ∈ before, isBlank c = true) ∧
    ∀ c ∈ after, isBlank c = true

theorem trimEnd_append_of_blank {cs : List Char} (h : ∀ c ∈ cs, isBlank c = true) (t : List Char) :
    trimEnd (t ++ cs) = trimEnd t := by
  rw [trimEnd, dropEndWhile, List.reverse_append,
    List.dropWhile_append_of_pos fun c hc => h c (List.mem_reverse.1 hc)]
  rfl

theorem trim_append_of_blank {cs : List Char} (h : ∀ c ∈ cs, isBlank c = true) (t : List Char) :
    trim (cs ++ t) = trim t := by
  rw [trim, trimStart, List.dropWhile_append_of_pos h]
  rfl

theorem trim_eq_nil_iff {cs : List Char} : trim cs = [] ↔ ∀ c ∈ cs, isBlank c = true := by
  constructor
  · intro h
    cases hstart : trimStart cs with
    | nil => exact List.dropWhile_eq_nil_iff.1 hstart
    | cons c rest =>
      have hc : isBlank c = false := by
        have hhead := List.head?_dropWhile_not isBlank cs
        rw [trimStart] at hstart
        simpa [hstart] using hhead
      rw [trim, hstart, trimEnd_cons hc] at h
      cases h
  · intro h
    have hnil := trim_append_of_blank h []
    rwa [List.append_nil] at hnil

theorem IsPadded.trim_eq {t text : List Char} (h : IsPadded t text) : trim text = trim t := by
  obtain ⟨before, after, rfl, hbefore, hafter⟩ := h
  rw [trim_append_of_blank hbefore]
  by_cases hblank : ∀ c ∈ t, isBlank c = true
  · rw [trim_append_of_blank hblank, trim_eq_nil_iff.2 hafter, trim_eq_nil_iff.2 hblank]
  · have hne : (t.dropWhile isBlank).isEmpty = false :=
      List.isEmpty_eq_false_iff.2 fun hnil => hblank (List.dropWhile_eq_nil_iff.1 hnil)
    rw [trim, trimStart, List.dropWhile_append, hne, if_neg Bool.false_ne_true, trimEnd_append_of_blank hafter]
    rfl

theorem isPadded_trimStart (text : List Char) : IsPadded (trimStart text) text := by
  refine ⟨text.takeWhile isBlank, [], ?_, fun c hc => List.all_eq_true.1 List.all_takeWhile c hc, nofun⟩
  rw [List.append_nil, takeWhile_append_trimStart]

theorem isPadded_trimEnd (text : List Char) : IsPadded (trimEnd text) text := by
  refine ⟨[], (text.reverse.takeWhile isBlank).reverse, (dropEndWhile_append isBlank text).symm, nofun,
    fun c hc => ?_⟩
  exact List.all_eq_true.1 List.all_takeWhile c (List.mem_reverse.1 hc)

theorem IsPadded.trans {t text text' : List Char} (h : IsPadded t text) (h' : IsPadded text text') :
    IsPadded t text' := by
  obtain ⟨before, after, rfl, hbefore, hafter⟩ := h
  obtain ⟨before', after', rfl, hbefore', hafter'⟩ := h'
  refine ⟨before' ++ before, after ++ after', by simp, ?_, ?_⟩
  · exact List.forall_mem_append.2 ⟨hbefore', hbefore⟩
  · exact List.forall_mem_append.2 ⟨hafter, hafter'⟩

theorem isPadded_trim (text : List Char) : IsPadded (trim text) text :=
  (isPadded_trimEnd (trimStart text)).trans (isPadded_trimStart text)

end Spreadsheet.Text
