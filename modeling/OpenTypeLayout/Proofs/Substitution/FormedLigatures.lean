import OpenTypeLayout.Proofs.Substitution.LigaturePass

/-!
# Where ligatures and marks get to

When the ligatures of a text have been formed, each of them stands where its first component was, up
to the glyphs that have gone before. The glyphs that were skipped between its components follow it
directly, and after these come the skipped glyphs that followed the last component.

- `formedFrom` lists the ligatures, with the places that they come from and where they have got to.
- `FormedLigature.WrittenIn` says where all these glyphs are in the text.
-/

namespace OpenTypeLayout

/-! ## §1 What is carried over -/

namespace GlyphBuffer

variable {input : Array GlyphItem} {ligature : UInt16} {component place : Nat} {others : List Nat}

theorem le_getLastD_of_ascending {place : Nat} {others : List Nat}
    (h : (place :: others).Pairwise (· < ·)) : place + others.length ≤ others.getLastD place := by
  induction others generalizing place with
  | nil => exact Nat.le_refl _
  | cons next rest ih =>
    obtain ⟨hnext, hrest⟩ := List.pairwise_cons.mp h
    have hlt := hnext next List.mem_cons_self
    have hle := ih hrest
    rw [List.getLastD_cons, List.length_cons]
    omega

theorem size_carried (hascending : (place :: others).Pairwise (· < ·))
    (hinside : ∀ q ∈ others, q < input.size) :
    (carried input ligature component (place + 1) others).size =
      others.getLastD place - place - others.length := by
  induction others generalizing place component with
  | nil =>
    rw [carried, List.getLastD_nil]
    simp
  | cons next rest ih =>
    obtain ⟨hnext, hrest⟩ := List.pairwise_cons.mp hascending
    have hlt := hnext next List.mem_cons_self
    have hsize := hinside next List.mem_cons_self
    have hlast := le_getLastD_of_ascending hrest
    rw [carried, Array.size_append, Array.size_map, Array.size_extract,
      ih hrest fun q hq => hinside q (List.mem_cons_of_mem next hq), List.getLastD_cons,
      List.length_cons, Nat.min_eq_left (Nat.le_of_lt hsize)]
    omega

/-- A glyph between two components is written with the number of the first of them. -/
theorem getElem?_carried (component : Nat) (hascending : (place :: others).Pairwise (· < ·))
    (hinside : ∀ q ∈ others, q < input.size) {k p p' q : Nat}
    (hp : (place :: others)[k]? = some p) (hp' : (place :: others)[k + 1]? = some p')
    (hlow : p < q) (hhigh : q < p') :
    (carried input ligature component (place + 1) others)[q - (place + 1) - k]? =
      input[q]?.map fun x => replacement x (UInt16.ofNat (component + k)) ligature x.glyph := by
  -- the glyphs before the next component have been carried first, then those behind it
  induction others generalizing place component k with
  | nil => cases hp'
  | cons next rest ih =>
    obtain ⟨hnext, hrest⟩ := List.pairwise_cons.mp hascending
    have hlt := hnext next List.mem_cons_self
    have hsize := hinside next List.mem_cons_self
    have hextract : ((input.extract (place + 1) next).map fun x =>
        replacement x (UInt16.ofNat component) ligature x.glyph).size = next - (place + 1) := by
      rw [Array.size_map, Array.size_extract, Nat.min_eq_left (Nat.le_of_lt hsize)]
    rw [carried]
    cases k with
    -- the place is in the first stretch, right behind the ligature
    | zero =>
      obtain rfl := Option.some.inj hp
      obtain rfl := Option.some.inj hp'
      rw [Array.getElem?_append_left (by rw [hextract]; omega), Array.getElem?_map,
        Array.getElem?_extract, if_pos (by omega)]
      have hplace : place + 1 + (q - (place + 1) - 0) = q := by omega
      rw [hplace, Nat.add_zero]
    -- it is behind further components, each of which is missing from what has been carried
    | succ k =>
      rw [List.getElem?_cons_succ] at hp hp'
      have hfar : next + k ≤ p := by
        obtain ⟨hk, rfl⟩ := List.getElem?_eq_some_iff.mp hp
        have := add_sub_le_of_ascending hrest (Nat.zero_le k) hk
        exact this
      have hrest' := ih (component + 1) hrest
        (fun q hq => hinside q (List.mem_cons_of_mem next hq)) hp hp'
      rw [Array.getElem?_append_right (by rw [hextract]; omega), hextract]
      have hindex : q - (place + 1) - (k + 1) - (next - (place + 1)) = q - (next + 1) - k := by
        omega
      rw [hindex, hrest', Nat.add_right_comm, Nat.add_assoc]

/-- Whatever is carried over was between two components. -/
theorem exists_of_mem_carried {y : GlyphItem}
    (hy : y ∈ carried input ligature component (place + 1) others) :
    ∃ (k p p' q : Nat) (x : GlyphItem), (place :: others)[k]? = some p ∧
      (place :: others)[k + 1]? = some p' ∧ p < q ∧ q < p' ∧ input[q]? = some x ∧
      y = replacement x (UInt16.ofNat (component + k)) ligature x.glyph := by
  induction others generalizing place component with
  | nil => exact absurd hy (Array.not_mem_empty y)
  | cons next rest ih =>
    rcases Array.mem_append.mp hy with hy | hy
    · obtain ⟨x, hx, rfl⟩ := Array.mem_map.mp hy
      obtain ⟨i, hi, hget⟩ := Array.mem_iff_getElem.mp hx
      rw [Array.size_extract] at hi
      refine ⟨0, place, next, place + 1 + i, x, rfl, rfl, by omega, by omega, ?_, rfl⟩
      rw [← hget, Array.getElem_extract]
      exact Array.getElem?_eq_getElem _
    · obtain ⟨k, p, p', q, x, hp, hp', hlow, hhigh, hx, rfl⟩ := ih hy
      exact ⟨k + 1, p, p', q, x, hp, hp', hlow, hhigh, hx, by rw [Nat.add_assoc, Nat.add_comm 1 k]⟩

end GlyphBuffer

/-! ## §2 Where ligatures come from -/

section

variable {f : GlyphFilter} {subtables : List LigatureSubst} {items : Array GlyphItem}
variable {rounds place index : Nat} {number : UInt16}

theorem exists_of_ligatureAt {glyph : GlyphId} {others : List Nat}
    (h : ligatureAt f subtables items place = some (glyph, others)) :
    (∃ item, items[place]? = some item) ∧ Strings f items place others ∧
      ∃ subtable ∈ subtables, ∃ ligatures ∈ subtable.entries, ∃ l ∈ ligatures, l.glyph = glyph ∧
        others.length + 1 = l.count := by
  obtain ⟨item, hitem, h⟩ := Option.bind_eq_some_iff.mp h
  obtain ⟨p, -, h⟩ := Option.bind_eq_some_iff.mp h
  obtain ⟨⟨glyph', m⟩, hfound, hm⟩ := Option.map_eq_some_iff.mp h
  obtain ⟨rfl, rfl⟩ := Prod.mk.inj hm
  obtain ⟨subtable, hsubtable, ligatures, hentry, l, hl, hglyph, hcons, hstrings, hcount⟩ :=
    exists_of_ligatureIn hfound
  refine ⟨⟨item, hitem⟩, hstrings, subtable, hsubtable, ligatures, hentry, l, hl, hglyph, ?_⟩
  rw [← hcount, hcons, List.length_cons, List.tail_cons]

theorem ligatureAt_of_mem_formedFrom {l : FormedLigature}
    (h : l ∈ formedFrom f subtables items rounds place index) :
    ligatureAt f subtables items l.first = some (l.glyph, l.others) := by
  induction rounds generalizing place index with
  | zero => cases h
  | succ rounds ih =>
    rw [formedFrom] at h
    split at h
    case h_1 => exact ih h
    case h_2 glyph others hfound =>
      rcases List.mem_cons.mp h with rfl | h
      · exact hfound
      · exact ih h

/-- Glyphs that are skipped stay where they are, up to the next one that counts. -/
theorem getElem?_ligatedFrom_of_not_admits {q : Nat} (hplace : place ≤ q) (hq : q < place + rounds)
    (hskipped : ∀ i, place ≤ i → i ≤ q → items[i]?.any f.admits = false) {x : GlyphItem}
    (hx : items[q]? = some x) :
    (ligatedFrom f subtables items rounds place number)[q - place]? = some x := by
  induction rounds generalizing place with
  | zero => omega
  | succ rounds ih =>
    have hsize : q < items.size := (Array.getElem?_eq_some_iff.mp hx).1
    rw [ligatedFrom, Array.getElem?_eq_getElem (Nat.lt_of_le_of_lt hplace hsize)]
    dsimp only
    rw [ligatureAt_of_not_admits (hskipped place (Nat.le_refl _) hplace)]
    rcases Nat.eq_or_lt_of_le hplace with rfl | hlt
    · rw [Nat.sub_self, ← hx]
      exact (Array.getElem?_eq_getElem hsize).symm
    · have hnext : q - place = q - (place + 1) + 1 := by omega
      rw [hnext, List.getElem?_cons_succ]
      exact ih hlt (by omega) fun i hi => hskipped i (by omega)

end

/-! ## §3 Where glyphs have got to -/

namespace FormedLigature

variable {f : GlyphFilter} {subtables : List LigatureSubst} {items : Array GlyphItem}
variable {text : List GlyphItem} {number : UInt16} {l : FormedLigature}

/-- Where a ligature with a number is in a text, and where the glyphs are that were skipped. -/
structure WrittenIn (f : GlyphFilter) (items : Array GlyphItem) (text : List GlyphItem)
    (number : UInt16) (l : FormedLigature) : Prop where
  /-- The ligature is in the place of its first component. -/
  ligature : ∃ x, items[l.first]? = some x ∧
    text[l.index]? = some (GlyphBuffer.replacement x inherit number l.glyph)
  /-- Glyphs between two components belong to the first of them. -/
  skipped : ∀ (k p p' q : Nat) (x : GlyphItem), l.places[k]? = some p → l.places[k + 1]? = some p' →
    p < q → q < p' → items[q]? = some x → text[l.index + l.distance k q]? =
      some (GlyphBuffer.replacement x (UInt16.ofNat k) number x.glyph)
  /-- Nothing but these glyphs follows before the place of the last component. -/
  between : ∀ d, 0 < d → d ≤ l.distance l.others.length l.last → ∃ (x y : GlyphItem), x ∈ items ∧
    f.admits x = false ∧ text[l.index + d]? = some y ∧ y.glyph = x.glyph
  /-- The skipped glyphs after the last component follow these. -/
  following : ∀ (q : Nat) (x : GlyphItem), l.last < q →
    (∀ i, l.last < i → i ≤ q → items[i]?.any f.admits = false) → items[q]? = some x →
      text[l.index + l.distance l.others.length q]? = some x

theorem last_eq_getElem (l : FormedLigature) :
    l.places[l.others.length]? = some l.last := by
  rw [places, last, List.getLastD_eq_getLast?, ← List.getLast?_cons, List.getLast?_eq_getElem?]
  rfl

theorem add_le_of_places (l : FormedLigature) (h : l.places.Pairwise (· < ·)) {k p : Nat}
    (hp : l.places[k]? = some p) : l.first + k ≤ p := by
  obtain ⟨hk, rfl⟩ := List.getElem?_eq_some_iff.mp hp
  exact add_sub_le_of_ascending h (Nat.zero_le k) hk

theorem le_last_of_places (l : FormedLigature) (h : l.places.Pairwise (· < ·)) {k p : Nat}
    (hp : l.places[k]? = some p) : p + l.others.length ≤ l.last + k ∧ k ≤ l.others.length := by
  obtain ⟨hk, rfl⟩ := List.getElem?_eq_some_iff.mp hp
  obtain ⟨hend, hlast⟩ := List.getElem?_eq_some_iff.mp l.last_eq_getElem
  have hle : k ≤ l.others.length := Nat.le_of_lt_succ hk
  have hfar := add_sub_le_of_ascending h hle hend
  omega

/-- Where a ligature is written, it and the glyphs that were skipped are where they belong. -/
theorem writtenIn_of_strings {before : List GlyphItem} (hbefore : before.length = l.index)
    {x : GlyphItem} (hx : items[l.first]? = some x) (hstrings : Strings f items l.first l.others)
    {rounds : Nat} (hrounds : items.size ≤ l.last + 1 + rounds) {next : UInt16} :
    WrittenIn f items (before ++ GlyphBuffer.replacement x inherit number l.glyph ::
      ((GlyphBuffer.carried items number 0 (l.first + 1) l.others).toList ++
        ligatedFrom f subtables items rounds (l.last + 1) next)) number l := by
  have hascending : (l.first :: l.others).Pairwise (· < ·) := hstrings.found.ascending
  have hinside : ∀ q ∈ l.others, q < items.size := fun q hq => hstrings.found.lt_of_mem_tail hq
  have hlast : l.first + l.others.length ≤ l.last := GlyphBuffer.le_getLastD_of_ascending hascending
  have hsize : (GlyphBuffer.carried items number 0 (l.first + 1) l.others).size =
      l.last - l.first - l.others.length := GlyphBuffer.size_carried hascending hinside
  -- what is behind the ligature comes from what has been carried over, and then from the rest
  have hcarried : ∀ d, 0 < d → d ≤ l.distance l.others.length l.last →
      (before ++ GlyphBuffer.replacement x inherit number l.glyph ::
        ((GlyphBuffer.carried items number 0 (l.first + 1) l.others).toList ++
          ligatedFrom f subtables items rounds (l.last + 1) next))[l.index + d]? =
        (GlyphBuffer.carried items number 0 (l.first + 1) l.others)[d - 1]? := by
    intro d hpos hd
    rw [List.getElem?_append_right (by omega), hbefore]
    have hindex : l.index + d - l.index = d - 1 + 1 := by omega
    rw [hindex, List.getElem?_cons_succ, List.getElem?_append_left, Array.getElem?_toList]
    rw [Array.length_toList, hsize]
    unfold distance at hd
    omega
  -- the ligature itself, what stands between its components, all that has been carried, what
  -- follows
  refine ⟨⟨x, hx, ?_⟩, ?_, ?_, ?_⟩
  · rw [List.getElem?_append_right (Nat.le_of_eq hbefore), hbefore, Nat.sub_self]
    rfl
  -- a glyph between two components has as many components before it as it is skipped over
  · intro k p p' q y hp hp' hlow hhigh hy
    have hfirst := l.add_le_of_places hascending hp
    have hend := l.le_last_of_places hascending hp'
    rw [hcarried _ (by unfold distance; omega) (by unfold distance; omega)]
    have hplace : l.distance k q - 1 = q - (l.first + 1) - k := by
      unfold distance
      omega
    rw [hplace, GlyphBuffer.getElem?_carried 0 hascending hinside hp hp' hlow hhigh,
      hy, Nat.zero_add]
    rfl
  -- all that has been carried has been skipped when the components were matched
  · intro d hpos hd
    have hget : d - 1 < (GlyphBuffer.carried items number 0 (l.first + 1) l.others).size := by
      unfold distance at hd
      omega
    obtain ⟨k, p, p', q, y, hp, hp', hlow, hhigh, hy, hsame⟩ :=
      GlyphBuffer.exists_of_mem_carried (Array.getElem_mem hget)
    have hglyph := congrArg GlyphItem.glyph hsame
    have hskipped := GlyphFilter.not_admits_of_next? (hstrings.consecutive k p p' hp hp') hlow hhigh
    rw [hy, Option.any_some] at hskipped
    refine ⟨y, _, Array.mem_of_getElem? hy, hskipped, ?_, hglyph⟩
    rw [hcarried d hpos hd, Array.getElem?_eq_getElem hget]
  -- behind the last component the text goes on as it was, so long as glyphs are skipped
  · intro q y hq hskipped hy
    have hinside : q < items.size := (Array.getElem?_eq_some_iff.mp hy).1
    have hfollowing : (ligatedFrom f subtables items rounds (l.last + 1) next)[q - (l.last + 1)]? =
        some y := getElem?_ligatedFrom_of_not_admits hq (by omega) hskipped hy
    rw [← hfollowing, List.getElem?_append_right (by omega), hbefore]
    have hindex : l.index + l.distance l.others.length q - l.index =
        (q - (l.last + 1)) + (l.last - l.first - l.others.length) + 1 := by
      unfold distance
      omega
    rw [hindex, List.getElem?_cons_succ, List.getElem?_append_right, Array.length_toList, hsize,
      Nat.add_sub_cancel]
    rw [Array.length_toList, hsize]
    exact Nat.le_add_left _ _

/-- Each ligature that is formed is written, with the number that is next for it. -/
theorem writtenIn_of_formedFrom {rounds place index : Nat} {before : List GlyphItem}
    (hbefore : before.length = index) (hrounds : items.size ≤ place + rounds) {i : Nat}
    (hl : (formedFrom f subtables items rounds place index)[i]? = some l) :
    WrittenIn f items (before ++ ligatedFrom f subtables items rounds place number)
      (number + UInt16.ofNat i) l := by
  -- the text is written ligature by ligature, and what is written before stays where it is
  induction rounds generalizing place index before number i with
  | zero => cases hl
  | succ rounds ih =>
    rw [formedFrom] at hl
    rw [ligatedFrom]
    -- no ligature begins here, so the glyph is written as it is
    cases hfound : ligatureAt f subtables items place with
    | none =>
      rw [hfound] at hl
      cases hitem : items[place]? with
      | none =>
        rw [formedFrom_of_end (Nat.le_succ_of_le (Array.getElem?_eq_none_iff.mp hitem))] at hl
        cases hl
      | some item =>
        dsimp only at hl ⊢
        rw [List.append_cons]
        exact ih (by simp [hbefore]) (by omega) hl
    | some found =>
      obtain ⟨glyph, others⟩ := found
      obtain ⟨⟨item, hitem⟩, hstrings, -⟩ := exists_of_ligatureAt hfound
      rw [hfound] at hl
      rw [hitem]
      dsimp only at hl ⊢
      have hlast : place + others.length ≤ others.getLastD place :=
        GlyphBuffer.le_getLastD_of_ascending hstrings.found.ascending
      have hend : items.size ≤ others.getLastD place + 1 + rounds := by omega
      -- the first ligature that is formed here, or one that is formed in the rest
      cases i with
      | zero =>
        obtain rfl := Option.some.inj hl
        have hnumber : number + UInt16.ofNat 0 = number := UInt16.add_zero number
        rw [hnumber]
        exact writtenIn_of_strings (l := ⟨glyph, index, place, others⟩) hbefore hitem hstrings hend
      | succ i =>
        rw [List.getElem?_cons_succ] at hl
        -- the number of the next ligature is one more
        have hnumber : number + UInt16.ofNat (i + 1) = number + 1 + UInt16.ofNat i := by
          rw [UInt16.ofNat_add, UInt16.add_assoc, UInt16.add_comm 1]
          rfl
        rw [hnumber, ← List.cons_append, ← List.append_assoc]
        have hsize : (GlyphBuffer.carried items number 0 (place + 1) others).size =
            others.getLastD place - place - others.length :=
          GlyphBuffer.size_carried hstrings.found.ascending fun q hq =>
            hstrings.found.lt_of_mem_tail hq
        -- the rest begins behind the ligature and all that has been carried
        refine ih ?_ hend hl
        rw [List.length_append, List.length_cons, hbefore, Array.length_toList, hsize]
        dsimp only [distance, last]
        omega

/-- The ligatures of a text are where they belong, and have the numbers from the first one on. -/
theorem writtenIn_of_formedLigatures {subtables : Array LigatureSubst} {i : Nat}
    (hl : (formedLigatures f subtables items)[i]? = some l) (number : UInt16) :
    WrittenIn f items (ligatedFrom f subtables.toList items items.size 0 number)
      (number + UInt16.ofNat i) l :=
  have hrounds : items.size ≤ 0 + items.size := Nat.le_of_eq (Nat.zero_add _).symm
  writtenIn_of_formedFrom (List.length_nil : ([] : List GlyphItem).length = 0) hrounds hl

/-- Behind a ligature there are only glyphs that are skipped, up to the next one that counts after
    its last component. -/
theorem WrittenIn.exists_skipped (h : WrittenIn f items text number l)
    (hlast : l.first + l.others.length ≤ l.last) {q : Nat} (hsize : q < items.size)
    (hskipped : ∀ i, l.last < i → i ≤ q → items[i]?.any f.admits = false) {d : Nat} (hpos : 0 < d)
    (hd : d ≤ l.distance l.others.length q) :
    ∃ (x y : GlyphItem), x ∈ items ∧ f.admits x = false ∧
      text[l.index + d]? = some y ∧ y.glyph = x.glyph := by
  -- glyphs that have been carried are skipped, and so are those that follow up to the place
  by_cases hinside : d ≤ l.distance l.others.length l.last
  · exact h.between d hpos hinside
  · unfold distance at hd hinside
    have hlow : l.last < l.first + l.others.length + d := by omega
    have hhigh : l.first + l.others.length + d ≤ q := by omega
    have hx := Array.getElem?_eq_getElem (Nat.lt_of_le_of_lt hhigh hsize)
    have hget := h.following _ _ hlow (fun i hi hle => hskipped i hi (Nat.le_trans hle hhigh)) hx
    have hadmits := hskipped _ hlow hhigh
    rw [hx, Option.any_some] at hadmits
    have hdistance : l.distance l.others.length (l.first + l.others.length + d) = d := by
      unfold distance
      omega
    rw [hdistance] at hget
    exact ⟨_, _, Array.getElem_mem _, hadmits, hget, rfl⟩

end FormedLigature

end OpenTypeLayout
