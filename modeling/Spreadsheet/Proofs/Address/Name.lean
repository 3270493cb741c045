import Mathlib.Data.List.TakeDrop
import Spreadsheet.Formula.Evaluator
import Spreadsheet.Proofs.Address.Notation
import Spreadsheet.Proofs.Address.Range
import Spreadsheet.Proofs.Text.Padding

/-
  Names of cells and ranges.

  Reading the name of an address gives it back (`ofName_name`), so different
  addresses have different names. A name is made of capitals and then digits. A
  text of this form is the same in capitals and without outer blanks, so as a
  key it stands for itself.

  Two texts that are read as addresses are read as the range they span if there
  is a colon between them (`Range.ofText_append_colon`): no address has a colon,
  and each corner is trimmed on its own. So a range is read from its name
  (`Range.ofText_name`), which has the form of a range if it has two corners
  (`isRangeForm_name`), and from every way to write two opposite corners
  (`Range.ofText_spanning`).
-/

namespace Spreadsheet

namespace Address

theorem ofName_name (a : Address) : ofName a.name = .ok a :=
  ofName_eq_ok.2 ⟨_, _, rfl, denoted_name a⟩

theorem label_toList (a : Address) : a.label.toList = a.name := by simp [label]

theorem ofName_label (a : Address) : ofName a.label.toList = .ok a := by
  rw [label_toList, ofName_name]

theorem label_injective {a b : Address} (h : a.label = b.label) : a = b := by
  have := ofName_label a
  rw [h, ofName_label b] at this
  exact (Except.ok.inj this).symm

end Address

namespace Formula

theorem afterAddress?_append {ls ds rest : List Char} (hls : ∀ c ∈ ls, Text.isCapital c = true)
    (hds : ∀ c ∈ ds, Text.isDigit c = true) (hl : ls ≠ []) (hd : ds ≠ [])
    (hrest : ∀ c ∈ rest.head?, Text.isDigit c = false) :
    afterAddress? (ls ++ (ds ++ rest)) = some rest := by
  have hhead : ∀ c ∈ (ds ++ rest).head?, Text.isCapital c = false := by
    intro c hc
    rw [List.head?_append_of_ne_nil _ hd] at hc
    exact Text.isCapital_of_isDigit (hds c (List.mem_of_mem_head? hc))
  obtain ⟨hcapitals, hafter⟩ := Text.split_append hls hhead
  obtain ⟨hdigits, hend⟩ := Text.split_append hds hrest
  simp [afterAddress?, hcapitals, hafter, hdigits, hend, hl, hd]

theorem afterAddress?_name (a : Address) {rest : List Char}
    (hrest : ∀ c ∈ rest.head?, Text.isDigit c = false) : afterAddress? (a.name ++ rest) = some rest := by
  rw [Address.name, List.append_assoc]
  exact afterAddress?_append (fun _ hc => Column.isCapital_of_mem_lettersOf hc)
    (fun _ hc => Text.isDigit_of_mem_digits hc) (Column.lettersOf_ne_nil _) (Text.digits_ne_nil _) hrest

theorem isAddressForm_name (a : Address) : isAddressForm a.name = true := by
  have hname := afterAddress?_name a (fun c (hc : c ∈ [].head?) => by cases hc)
  rw [List.append_nil] at hname
  rw [isAddressForm, hname]
  rfl

theorem exists_of_isAddressForm {cs : List Char} (h : isAddressForm cs = true) :
    ∃ ls ds, cs = ls ++ ds ∧ ls ≠ [] ∧ ds ≠ [] ∧ (∀ c ∈ ls, Text.isCapital c = true) ∧
      ∀ c ∈ ds, Text.isDigit c = true := by
  simp only [isAddressForm, beq_iff_eq, afterAddress?] at h
  split at h
  · cases h
  · rename_i hne
    simp only [Option.some.injEq] at h
    simp only [Bool.or_eq_true, not_or, List.isEmpty_iff] at hne
    refine ⟨cs.takeWhile Text.isCapital, cs.dropWhile Text.isCapital,
      List.takeWhile_append_dropWhile.symm, hne.1, ?_, ?_, ?_⟩
    · intro hnil
      rw [hnil] at hne
      exact hne.2 rfl
    · exact List.all_eq_true.1 List.all_takeWhile
    · have hsplit := List.takeWhile_append_dropWhile (p := Text.isDigit)
        (l := cs.dropWhile Text.isCapital)
      rw [h, List.append_nil] at hsplit
      rw [← hsplit]
      exact List.all_eq_true.1 List.all_takeWhile

theorem isBlank_of_isAddressForm {cs : List Char} (h : isAddressForm cs = true) :
    ∀ c ∈ cs, Text.isBlank c = false := by
  obtain ⟨ls, ds, rfl, -, -, hls, hds⟩ := exists_of_isAddressForm h
  intro c hc
  rcases List.mem_append.1 hc with hc | hc
  · exact Text.isBlank_of_isCapital (hls c hc)
  · exact Text.isBlank_of_isDigit (hds c hc)

theorem trim_of_isAddressForm {cs : List Char} (h : isAddressForm cs = true) : Text.trim cs = cs :=
  Text.trim_eq_self_of_forall (isBlank_of_isAddressForm h)

theorem upper_of_isAddressForm {cs : List Char} (h : isAddressForm cs = true) :
    Text.upper cs = cs := by
  obtain ⟨ls, ds, rfl, -, -, hls, hds⟩ := exists_of_isAddressForm h
  refine Text.upper_eq_self (fun c hc => ?_)
  rcases List.mem_append.1 hc with hc | hc
  · exact Text.upperChar_of_isCapital (hls c hc)
  · exact Text.upperChar_of_isDigit (hds c hc)

theorem cacheKey_of_isAddressForm {cs : List Char} (h : isAddressForm cs = true) :
    cacheKey (String.ofList cs) = String.ofList cs := by
  simp [cacheKey, Text.trimmed, Text.uppercased, trim_of_isAddressForm h, upper_of_isAddressForm h]

theorem isRangeForm_name (a b : Address) : isRangeForm (a.name ++ ':' :: b.name) = true := by
  have hafter : afterAddress? (a.name ++ ':' :: b.name) = some (':' :: b.name) := by
    refine afterAddress?_name a fun c hc => ?_
    cases hc
    decide
  have hcolon : Text.trimStart (':' :: b.name) = ':' :: b.name := by
    refine Text.trimStart_eq_self fun c hc => ?_
    cases hc
    decide
  have hname : Text.trimStart b.name = b.name := Text.trimStart_eq_self fun c hc =>
    isBlank_of_isAddressForm (isAddressForm_name b) c (List.mem_of_mem_head? hc)
  rw [isRangeForm, hafter, Option.map_some, hcolon]
  show isAddressForm (Text.trimStart b.name) = true
  rw [hname, isAddressForm_name]

end Formula

/-! ## Reading ranges -/

namespace Address

theorem ofText_of_isPadded {t text : List Char} (h : Text.IsPadded t text) : ofText text = ofText t := by
  rw [ofText, h.trim_eq, ofText]

theorem ofText_of_ofName {text : List Char} {a : Address} (h : ofName text = .ok a) : ofText text = .ok a := by
  have hblank : ∀ c ∈ text, Text.isBlank c = false := fun c hc =>
    (isLetter_or_isDigit_of_ofName h c hc).elim Text.isBlank_of_isLetter Text.isBlank_of_isDigit
  rw [ofText, Text.trim_eq_self_of_forall hblank, h]

theorem ofText_name (a : Address) : ofText a.name = .ok a := ofText_of_ofName (ofName_name a)

theorem ne_colon_of_ofText {text : List Char} {a : Address} (h : ofText text = .ok a) :
    ∀ c ∈ text, c ≠ ':' := by
  obtain ⟨before, after, htext, hbefore, hafter⟩ := Text.isPadded_trim text
  rw [htext]
  rintro c hc rfl
  rcases List.mem_append.1 hc with hc | hc
  · exact absurd (hbefore _ hc) (by decide)
  · rcases List.mem_append.1 hc with hc | hc
    · exact absurd (isLetter_or_isDigit_of_ofName h _ hc) (by decide)
    · exact absurd (hafter _ hc) (by decide)

end Address

namespace Range

theorem ofText_of_isPadded {t text : List Char} (h : Text.IsPadded t text) : ofText text = ofText t := by
  rw [ofText, h.trim_eq, ofText]

theorem readCorner_of_ofText (whole : List Char) {corner : List Char} {a : Address}
    (h : Address.ofText corner = .ok a) : readCorner whole corner = .ok a := by
  rw [readCorner, h]
  rfl

theorem span_colon {cs rest : List Char} (hcs : ∀ c ∈ cs, c ≠ ':') (hrest : ∀ c ∈ rest.head?, c = ':') :
    (cs ++ rest).span (· != ':') = (cs, rest) := by
  have hbefore : ∀ c ∈ cs, (c != ':') = true := fun c hc => bne_iff_ne.2 (hcs c hc)
  obtain ⟨htake, hdrop⟩ := Text.split_append hbefore fun c hc => by simpa using hrest c hc
  rw [List.span_eq_takeWhile_dropWhile, htake, hdrop]

theorem ofText_append_colon {first second : List Char} {a b : Address} (hfirst : Address.ofText first = .ok a)
    (hsecond : Address.ofText second = .ok b) : ofText (first ++ ':' :: second) = .ok (spanning a b) := by
  -- trimming the whole text takes the outer blanks of both corners away
  have hfirst' : Address.ofText (Text.trimStart first) = .ok a := by
    rw [← Address.ofText_of_isPadded (Text.isPadded_trimStart first), hfirst]
  have hsecond' : Address.ofText (Text.trimEnd second) = .ok b := by
    rw [← Address.ofText_of_isPadded (Text.isPadded_trimEnd second), hsecond]
  unfold ofText
  rw [Text.trim_append_cons (by decide)]
  dsimp only
  rw [span_colon (Address.ne_colon_of_ofText hfirst') (by simp)]
  dsimp only
  rw [readCorner_of_ofText _ hfirst', readCorner_of_ofText _ hsecond']
  rfl

theorem ofText_of_address {text : List Char} {a : Address} (h : Address.ofText text = .ok a) :
    ofText text = .ok (single a) := by
  have htrim : Address.ofText (Text.trim text) = .ok a := by
    rw [← Address.ofText_of_isPadded (Text.isPadded_trim text), h]
  have hspan : (Text.trim text ++ []).span (· != ':') = (Text.trim text, []) :=
    span_colon (Address.ne_colon_of_ofText htrim) (by simp)
  rw [List.append_nil] at hspan
  unfold ofText
  dsimp only
  rw [hspan]
  show ((Address.ofText (Text.trim text)).mapError ReferenceError.address).map single = _
  rw [htrim]
  rfl

/-! ## Names of ranges -/

theorem isBlank_of_mem_corners {a b : Address} {c : Char} (hc : c ∈ a.name ++ ':' :: b.name) :
    Text.isBlank c = false := by
  have hblank : ∀ a : Address, c ∈ a.name → Text.isBlank c = false := fun a =>
    Formula.isBlank_of_isAddressForm (Formula.isAddressForm_name a) c
  rcases List.mem_append.1 hc with hc | hc
  · exact hblank a hc
  · rcases List.mem_cons.1 hc with rfl | hc
    · decide
    · exact hblank b hc

theorem trim_corners (a b : Address) : Text.trim (a.name ++ ':' :: b.name) = a.name ++ ':' :: b.name :=
  Text.trim_eq_self_of_forall fun _ => isBlank_of_mem_corners

/-- Two corners in any order are read as the range they span. -/
theorem ofText_corners (a b : Address) : ofText (a.name ++ ':' :: b.name) = .ok (spanning a b) :=
  ofText_append_colon (Address.ofText_name a) (Address.ofText_name b)

theorem ofText_name (r : Range) : ofText r.name = .ok r := by
  by_cases hsame : r.topLeft = r.bottomRight
  · rw [name, if_pos hsame, ofText_of_address (Address.ofText_name r.topLeft), single_topLeft hsame]
  · rw [name, if_neg hsame, ofText_corners, r.spanning_corners]

/-- A range is read from its name, and from any two opposite corners in either
order and in any case, with blanks around each of them and around the whole
text. -/
theorem ofText_spanning (a b : Address) :
    ofText (spanning a b).label.toList = .ok (spanning a b) ∧
    ∀ p q, (spanning a b).Opposite p q → ∀ first second first' second' text : List Char,
      first.map Char.toUpper = p.name → second.map Char.toUpper = q.name →
      Text.IsPadded first first' → Text.IsPadded second second' →
      Text.IsPadded (first' ++ ':' :: second') text → ofText text = .ok (spanning a b) := by
  refine ⟨by rw [label, String.toList_ofList, ofText_name], ?_⟩
  intro p q hpq first second first' second' text hfirst hsecond hpad hpad' htext
  have hread : ∀ {a : Address} {cs cs' : List Char}, cs.map Char.toUpper = a.name → Text.IsPadded cs cs' →
      Address.ofText cs' = .ok a := by
    intro a cs cs' hcs hpad
    rw [Address.ofText_of_isPadded hpad]
    exact Address.ofText_of_ofName (Address.ofName_of_map_toUpper (hcs ▸ Address.ofName_name a))
  rw [ofText_of_isPadded htext, ofText_append_colon (hread hfirst hpad) (hread hsecond hpad'), hpq.spanning_eq]

/-- The other two corners of B2:AA10, the lower one first. -/
theorem ofText_spanning_mixed :
    (spanning ⟨1, 1⟩ ⟨9, 26⟩).Opposite ⟨9, 1⟩ ⟨1, 26⟩ ∧
      ofText "\tb10 : aA2\n ".toList = .ok (spanning ⟨1, 1⟩ ⟨9, 26⟩) := by
  have hopposite : (spanning ⟨1, 1⟩ ⟨9, 26⟩).Opposite ⟨9, 1⟩ ⟨1, 26⟩ :=
    ⟨.inr ⟨rfl, rfl⟩, .inl ⟨rfl, rfl⟩⟩
  have hfirst : Text.IsPadded "b10".toList "b10 ".toList :=
    ⟨[], [' '], rfl, nofun, List.forall_mem_singleton.2 rfl⟩
  have hsecond : Text.IsPadded "aA2".toList " aA2".toList :=
    ⟨[' '], [], rfl, List.forall_mem_singleton.2 rfl, nofun⟩
  have htext : Text.IsPadded ("b10 ".toList ++ ':' :: " aA2".toList) "\tb10 : aA2\n ".toList :=
    ⟨['\t'], ['\n', ' '], rfl, List.forall_mem_singleton.2 rfl, List.all_eq_true.1 rfl⟩
  exact ⟨hopposite, (ofText_spanning ⟨1, 1⟩ ⟨9, 26⟩).2 _ _ hopposite "b10".toList "aA2".toList "b10 ".toList
    " aA2".toList _ (by decide +kernel) (by decide +kernel) hfirst hsecond htext⟩

end Range

end Spreadsheet
