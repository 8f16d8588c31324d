import IndenturedServer.Artifacts.Matching

/-!
The decoder of `String::from_utf8_lossy`.

Its result is UTF-8, text that is UTF-8 is its own result, and no result is
shorter than the text: a replacement character takes three bytes, and what it
stands for is at most three bytes long.
-/

namespace IndenturedServer.Artifacts

open Source List

theorem inRange_eq_false {low high low' high' b : UInt8} (h : inRange low high b = true)
    (hapart : high < low' ∨ high' < low) : inRange low' high' b = false := by
  simp only [inRange, Bool.and_eq_true, decide_eq_true_eq, UInt8.le_iff_toNat_le] at h
  simp only [UInt8.lt_iff_toNat_lt] at hapart
  simp only [inRange, Bool.and_eq_false_iff, decide_eq_false_iff_not, UInt8.le_iff_toNat_le]
  omega

theorem length_le_fromUtf8Lossy (text : Text) : text.length ≤ (fromUtf8Lossy text).length := by
  fun_induction fromUtf8Lossy text with
  | _ =>
    simp only [length_cons, length_append, length_nil, replacement] at *
    omega

theorem isUtf8_two {a b : UInt8} (rest : Text) (ha : ¬ a < 0x80) (hlead : inRange 0xc2 0xdf a = true) :
    isUtf8 (a :: b :: rest) = (isContinuation b && isUtf8 rest) := by
  rw [isUtf8.eq_def]
  simp only [if_neg ha, if_pos hlead]

theorem isUtf8_three {a b c : UInt8} (rest : Text) (ha : ¬ a < 0x80)
    (hlead : inRange 0xe0 0xef a = true) :
    isUtf8 (a :: b :: c :: rest) =
      (inRange (if a = 0xe0 then 0xa0 else 0x80) (if a = 0xed then 0x9f else 0xbf) b &&
        isContinuation c && isUtf8 rest) := by
  have htwo : ¬ inRange 0xc2 0xdf a = true := by
    rw [inRange_eq_false hlead (by decide)]
    nofun
  rw [isUtf8.eq_def]
  simp only [if_neg ha, if_neg htwo, if_pos hlead]

theorem isUtf8_four {a b c d : UInt8} (rest : Text) (ha : ¬ a < 0x80)
    (hlead : inRange 0xf0 0xf4 a = true) :
    isUtf8 (a :: b :: c :: d :: rest) =
      (inRange (if a = 0xf0 then 0x90 else 0x80) (if a = 0xf4 then 0x8f else 0xbf) b &&
        isContinuation c && isContinuation d && isUtf8 rest) := by
  have htwo : ¬ inRange 0xc2 0xdf a = true := by
    rw [inRange_eq_false hlead (by decide)]
    nofun
  have hthree : ¬ inRange 0xe0 0xef a = true := by
    rw [inRange_eq_false hlead (by decide)]
    nofun
  rw [isUtf8.eq_def]
  simp only [if_neg ha, if_neg htwo, if_neg hthree, hlead, Bool.true_and]

theorem isUtf8_replacement (text : Text) : isUtf8 (replacement ++ text) = isUtf8 text := by
  show isUtf8 (0xef :: 0xbf :: 0xbd :: text) = _
  rw [isUtf8_three text (by decide) (by decide)]
  rfl

theorem isUtf8_fromUtf8Lossy (text : Text) : isUtf8 (fromUtf8Lossy text) = true := by
  fun_induction fromUtf8Lossy text with
  | case1 => rfl
  | case2 a rest ha ih =>
    rw [isUtf8.eq_def]
    simpa only [if_pos ha] using ih
  | case4 a ha b tail hlead ih =>
    obtain ⟨hlead, hb⟩ := Bool.and_eq_true_iff.mp hlead
    rw [isUtf8_two _ ha hlead, hb, ih]
    rfl
  | case6 a ha b _ hlead c tail hc ih =>
    obtain ⟨hlead, hb⟩ := Bool.and_eq_true_iff.mp hlead
    rw [isUtf8_three _ ha hlead, hb, hc, ih]
    rfl
  | case10 a ha b _ _ hlead c hc d tail hd ih =>
    obtain ⟨hlead, hb⟩ := Bool.and_eq_true_iff.mp hlead
    rw [isUtf8_four _ ha hlead, hb, hc, hd, ih]
    rfl
  | case3 | case5 | case8 | case9 => rfl
  | _ =>
    rw [isUtf8_replacement]
    assumption

theorem fromUtf8Lossy_of_isUtf8 {text : Text} (h : isUtf8 text = true) :
    fromUtf8Lossy text = text := by
  fun_induction isUtf8 text with
  | case1 => rfl
  | case2 a rest ha ih =>
    rw [fromUtf8Lossy.eq_def]
    simp only [if_pos ha, ih h]
  | case3 a ha b rest hlead ih =>
    obtain ⟨hb, hrest⟩ := Bool.and_eq_true_iff.mp h
    rw [fromUtf8Lossy.eq_def]
    simp only [if_neg ha, hlead, hb, Bool.and_self, if_true, ih hrest]
  | case4 a ha b htwo c rest hlead ih =>
    simp only [Bool.and_eq_true] at h
    obtain ⟨⟨hb, hc⟩, hrest⟩ := h
    rw [fromUtf8Lossy.eq_def]
    simp only [if_neg ha, htwo, hlead, hb, hc, Bool.false_and, Bool.and_self, if_true, ih hrest]
    simp
  | case5 a ha b htwo c hthree d rest ih =>
    simp only [Bool.and_eq_true] at h
    obtain ⟨⟨⟨⟨hlead, hb⟩, hc⟩, hd⟩, hrest⟩ := h
    rw [fromUtf8Lossy.eq_def]
    simp only [if_neg ha, htwo, hthree, hlead, hb, hc, hd, Bool.false_and, Bool.and_self, if_true, ih hrest]
    simp
  | _ => contradiction

theorem isUtf8_append {text : Text} (rest : Text) (h : isUtf8 text = true) :
    isUtf8 (text ++ rest) = isUtf8 rest := by
  fun_induction isUtf8 text with
  | case1 => rfl
  | case2 a text ha ih =>
    rw [cons_append, isUtf8.eq_def]
    simp only [if_pos ha, ih h]
  | case3 a ha b text hlead ih =>
    obtain ⟨hb, htext⟩ := Bool.and_eq_true_iff.mp h
    rw [cons_append, cons_append, isUtf8_two _ ha hlead, hb, ih htext, Bool.true_and]
  | case4 a ha b _ c text hlead ih =>
    simp only [Bool.and_eq_true] at h
    obtain ⟨⟨hb, hc⟩, htext⟩ := h
    simp only [cons_append, isUtf8_three _ ha hlead, hb, hc, ih htext, Bool.true_and]
  | case5 a ha b _ c _ d text ih =>
    simp only [Bool.and_eq_true] at h
    obtain ⟨⟨⟨⟨hlead, hb⟩, hc⟩, hd⟩, htext⟩ := h
    simp only [cons_append, isUtf8_four _ ha hlead, hb, hc, hd, ih htext, Bool.true_and]
  | _ => contradiction

theorem fromUtf8Lossy_eq_self_iff {text : Text} : fromUtf8Lossy text = text ↔ isUtf8 text = true := by
  constructor
  · intro h
    rw [← h]
    exact isUtf8_fromUtf8Lossy text
  · exact fromUtf8Lossy_of_isUtf8

/-- Texts that are decoded one by one: the results spell the texts together if
each text is UTF-8, and only then, as one result cannot make up for another. -/
theorem flatten_fromUtf8Lossy_iff (texts : List Text) :
    (texts.map fromUtf8Lossy).flatten = texts.flatten ↔ ∀ text ∈ texts, isUtf8 text = true := by
  have hlength : ∀ texts : List Text,
      texts.flatten.length ≤ (texts.map fromUtf8Lossy).flatten.length := by
    intro texts
    induction texts with
    | nil => exact Nat.le_refl 0
    | cons text rest ih =>
      have hfirst := length_le_fromUtf8Lossy text
      rw [map_cons, flatten_cons, flatten_cons, length_append, length_append]
      omega
  induction texts with
  | nil => simp
  | cons text rest ih =>
    rw [map_cons, flatten_cons, flatten_cons, forall_mem_cons]
    refine Iff.trans ?_ (and_congr fromUtf8Lossy_eq_self_iff ih)
    constructor
    · intro h
      have hsum := congrArg length h
      have hfirst := length_le_fromUtf8Lossy text
      have hrest := hlength rest
      rw [length_append, length_append] at hsum
      exact append_inj h (by omega)
    · rintro ⟨hfirst, hrest⟩
      rw [hfirst, hrest]

end IndenturedServer.Artifacts
