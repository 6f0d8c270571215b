import OpenTypeLayout.Proofs.LoadedBytes
import OpenTypeLayout.Substitution.Subtable

/-!
# Selecting and listing

Scripts, language systems and features are selected by tag, and their tags are listed. Both go by
the places in lists that have been read: an index is a place, and the place that stands for the
default language system is never one of them.

- `FirstAt` says that a tag is listed at a place and not before. `LayoutTable.SelectionAgrees` says
  that this is what selecting finds, and when an index is refused.
- `LayoutTable.StoresScripts` says which scripts are stored in a window.
- `LayoutTable.selection_agrees` is about every table that has been read. Scripts that offer nothing
  are dropped, and the others are those that are stored, in the same order.
-/

namespace OpenTypeLayout

/-! ## §1 First places -/

/-- A tag is listed at a place, and not before. -/
def FirstAt (tags : Array Tag) (tag : Tag) (i : Nat) : Prop :=
  tags[i]? = some tag ∧ ∀ j < i, tags[j]? ≠ some tag

section

variable {α : Type} {items : Array (Tagged α)} {tags : Array Tag} {tag : Tag} {i : Nat}

theorem findIdx?_eq_some_iff_firstAt :
    (tags.findIdx? fun x => x = tag) = some i ↔ FirstAt tags tag i := by
  rw [Array.findIdx?_eq_some_iff_getElem, FirstAt]
  constructor
  · rintro ⟨hi, hfound, hbefore⟩
    refine ⟨Array.getElem?_eq_some_iff.mpr ⟨hi, of_decide_eq_true hfound⟩, fun j hj hsame => ?_⟩
    obtain ⟨hlt, hsame⟩ := Array.getElem?_eq_some_iff.mp hsame
    exact hbefore j hj (decide_eq_true hsame)
  · rintro ⟨hfound, hbefore⟩
    obtain ⟨hi, hfound⟩ := Array.getElem?_eq_some_iff.mp hfound
    refine ⟨hi, decide_eq_true hfound, fun j hj hsame => hbefore j hj ?_⟩
    exact Array.getElem?_eq_some_iff.mpr ⟨Nat.lt_trans hj hi, of_decide_eq_true hsame⟩

theorem findIdx?_eq_none_iff_not_mem : (tags.findIdx? fun x => x = tag) = none ↔ tag ∉ tags := by
  simp only [Array.findIdx?_eq_none_iff, decide_eq_false_iff_not]
  exact ⟨fun h hmem => h tag hmem rfl, fun h x hx hsame => h (hsame ▸ hx)⟩

theorem FirstAt.unique {j : Nat} (hi : FirstAt tags tag i) (hj : FirstAt tags tag j) : i = j := by
  rcases Nat.lt_trichotomy i j with hlt | heq | hlt
  · exact absurd hi.1 (hj.2 i hlt)
  · exact heq
  · exact absurd hj.1 (hi.2 j hlt)

/-- The first item with a tag is where the tag is listed first. -/
theorem findIdx?_tagged : (items.findIdx? fun item => item.tag = tag) =
    (items.map Tagged.tag).findIdx? fun x => x = tag := by
  rw [Array.findIdx?_map]
  rfl

end

/-- Only a language that is not the default one can be missing. -/
theorem Script.langSys?_eq_none {s : Script} {language : UInt16} :
    s.langSys? language = none ↔ language ≠ defaultLanguage ∧
    s.languages.size ≤ language.toNat := by
  rw [Script.langSys?]
  split
  case isTrue hdefault => simp [hdefault]
  case isFalse hnot => simp [hnot]

/-- The index that stands for no feature is the one that is stored where there is no
    required feature. -/
theorem LangSys.getD_required? (system : LangSys) :
    system.required?.getD noFeature = system.required := by
  rw [required?]
  split
  case isTrue hnone => exact hnone.symm
  case isFalse => rfl

namespace LayoutTable

variable {S : Type} {t : LayoutTable S} {script language : UInt16} {tag : Tag} {e : LayoutError}

/-! ## §2 Indices -/

/-- An index is not one of the indices of what is listed, nor does it stand for the default language
    system. -/
def OutOfRange (t : LayoutTable S) (script language : UInt16) : Prop :=
  t.scriptTags.size ≤ script.toNat ∨ language ≠ defaultLanguage ∧
    ∃ tags, t.languageTags script = .ok tags ∧ tags.size ≤ language.toNat

theorem script_eq_error :
    t.script script = .error e ↔ e = .invalidArgument ∧ t.scriptTags.size ≤ script.toNat := by
  rw [LayoutTable.script, scriptTags, Array.size_map, ← Array.getElem?_eq_none_iff]
  cases t.scripts[script.toNat]? <;> simp [eq_comm]

theorem languageTags_eq_ok {tags : Array Tag} :
    t.languageTags script = .ok tags ↔
    ∃ s, t.script script = .ok s ∧ s.languages.map Tagged.tag = tags := by
  rw [languageTags, except_bind_eq_ok]
  simp [pure, Except.pure]

theorem languageTags_eq_error : t.languageTags script = .error e ↔ t.script script = .error e := by
  rw [languageTags, except_bind_eq_error]
  simp [pure, Except.pure]

theorem langSys_eq_ok {system : LangSys} :
    t.langSys script language = .ok system ↔
    ∃ s, t.script script = .ok s ∧ s.langSys? language = some system := by
  rw [langSys, except_bind_eq_ok]
  refine exists_congr fun s => and_congr_right fun _ => ?_
  cases s.langSys? language <;> simp [pure, Except.pure, throw, throwThe, MonadExceptOf.throw]

/-- A language system is refused if one of its indices is out of range. -/
theorem langSys_eq_error :
    t.langSys script language = .error e ↔ e = .invalidArgument ∧ t.OutOfRange script language := by
  -- either the script is out of range, or the language system of a script that there is
  rw [langSys, except_bind_eq_error, script_eq_error, OutOfRange, and_or_left]
  refine or_congr .rfl ⟨?_, ?_⟩
  · rintro ⟨s, hs, hsystem⟩
    cases hfound : s.langSys? language with
    -- a language system that there is would be the answer
    | some system =>
      rw [hfound] at hsystem
      cases hsystem
    | none =>
      rw [hfound] at hsystem
      cases hsystem
      obtain ⟨hother, hsize⟩ := Script.langSys?_eq_none.mp hfound
      exact ⟨rfl, hother, _, languageTags_eq_ok.mpr ⟨s, hs, rfl⟩, by rwa [Array.size_map]⟩
  · rintro ⟨rfl, hother, tags, htags, hsize⟩
    obtain ⟨s, hs, rfl⟩ := languageTags_eq_ok.mp htags
    rw [Array.size_map] at hsize
    refine ⟨s, hs, ?_⟩
    rw [Script.langSys?_eq_none.mpr ⟨hother, hsize⟩]
    rfl

/-! ## §3 Selecting -/

/-- A script is selected where its tag is listed first. -/
theorem selectScript_eq_some (hsize : t.scripts.size ≤ 0xFFFF) {i : UInt16} :
    t.selectScript tag = some i ↔ FirstAt t.scriptTags tag i.toNat := by
  rw [selectScript, firstTagged, findIdx?_tagged, ← findIdx?_eq_some_iff_firstAt,
    Option.map_eq_some_iff]
  constructor
  · rintro ⟨place, hplace, rfl⟩
    have hlt := (Array.getElem?_eq_some_iff.mp (findIdx?_eq_some_iff_firstAt.mp hplace).1).1
    rw [Array.size_map] at hlt
    rwa [UInt16.toNat_ofNat', Nat.mod_eq_of_lt (by omega)]
  · exact fun hplace => ⟨_, hplace, UInt16.ofNat_toNat⟩

theorem selectScript_eq_none : t.selectScript tag = none ↔ tag ∉ t.scriptTags := by
  rw [selectScript, firstTagged, findIdx?_tagged, Option.map_eq_none_iff,
    findIdx?_eq_none_iff_not_mem]
  rfl

theorem selectLanguage_eq_error :
    t.selectLanguage tag script = .error e ↔ t.script script = .error e := by
  rw [selectLanguage, except_bind_eq_error]
  simp [pure, Except.pure]

theorem requiredFeature_eq_error :
    t.requiredFeature script language = .error e ↔ t.langSys script language = .error e := by
  rw [requiredFeature, except_bind_eq_error]
  simp [pure, Except.pure]

theorem requiredFeature_of_language {s : Script} {l : Tagged LangSys} (hs : t.script script = .ok s)
    (hother : language ≠ defaultLanguage) (hl : s.languages[language.toNat]? = some l) :
    t.requiredFeature script language = .ok l.item.required? := by
  have hsystem : t.langSys script language = .ok l.item := by
    refine langSys_eq_ok.mpr ⟨s, hs, ?_⟩
    rw [Script.langSys?, if_neg hother, hl, Option.map_some]
  rw [requiredFeature, hsystem]
  rfl

/-- A language system is selected where its tag is listed first, together with its
    required feature. -/
theorem selectLanguage_agrees (hsize : ∀ s, t.script script = .ok s → s.languages.size ≤ 0xFFFF)
    {tags : Array Tag} (htags : t.languageTags script = .ok tags) :
    ∃ answer, t.selectLanguage tag script = .ok answer ∧ (answer = none ↔ tag ∉ tags) ∧
      ∀ language required, answer = some (language, required) ↔
        FirstAt tags tag language.toNat ∧ language ≠ defaultLanguage ∧
        ∃ feature, t.requiredFeature script language = .ok feature ∧
          required = feature.getD noFeature := by
  obtain ⟨s, hs, rfl⟩ := languageTags_eq_ok.mp htags
  have hsize := hsize s hs
  refine ⟨_, by rw [selectLanguage, hs]; rfl, ?_⟩
  rw [findIdx?_tagged]
  cases hfound : (s.languages.map Tagged.tag).findIdx? fun x => x = tag with
  | none =>
    have hmissing := findIdx?_eq_none_iff_not_mem.mp hfound
    refine ⟨iff_of_true rfl hmissing, fun language required => ?_⟩
    exact iff_of_false (fun h => nomatch h) fun h => hmissing (Array.mem_of_getElem? h.1.1)
  | some place =>
    have hfirst := findIdx?_eq_some_iff_firstAt.mp hfound
    have hplace : place < s.languages.size := by
      simpa using (Array.getElem?_eq_some_iff.mp hfirst.1).1
    have hl := Array.getElem?_eq_getElem hplace
    have hindex : (UInt16.ofNat place).toNat = place := Nat.mod_eq_of_lt (by omega)
    -- a list of languages is too short for the place that stands for the default one
    have hother : UInt16.ofNat place ≠ defaultLanguage := fun hdefault => by
      rw [hdefault] at hindex
      exact absurd hplace (Nat.not_lt_of_le (hindex ▸ hsize))
    have hrequired : t.requiredFeature script (UInt16.ofNat place) = .ok _ :=
      requiredFeature_of_language hs hother (by rw [hindex]; exact hl)
    rw [Option.bind_some, hl, Option.map_some]
    refine ⟨iff_of_false (fun h => nomatch h) fun h => h (Array.mem_of_getElem? hfirst.1), ?_⟩
    intro language required
    constructor
    · rintro ⟨⟩
      exact ⟨by rwa [hindex], hother, _, hrequired, (LangSys.getD_required? _).symm⟩
    · rintro ⟨hlanguage, -, feature, hfeature, rfl⟩
      obtain rfl : language = UInt16.ofNat place :=
        UInt16.toNat_inj.mp ((hlanguage.unique hfirst).trans hindex.symm)
      cases hrequired.symm.trans hfeature
      rw [LangSys.getD_required?]

/-- Searching the features in order finds what looking through their tags finds. -/
theorem findFeature_eq {indices : List UInt16} {tags : List Tag}
    (h : List.Forall₂ (fun index tag => ∃ f, t.feature index.toNat = .ok f ∧ f.tag = tag)
      indices tags) :
    t.findFeature tag indices =
      .ok ((tags.findIdx? fun x => x = tag).bind fun k => indices[k]?) := by
  induction h with
  | nil => rfl
  | @cons index first indices tags hfirst hrest ih =>
    obtain ⟨f, hf, rfl⟩ := hfirst
    -- the search ends at the first feature if it has the tag, and otherwise goes on one place later
    rw [findFeature, hf, List.findIdx?_cons]
    by_cases hsame : f.tag = tag
    · simp [hsame]
    · simp only [hsame, if_false, decide_false, ih, Except.ok.injEq, Bool.false_eq_true]
      cases tags.findIdx? fun x => x = tag <;> simp

theorem featureLookups_of_feature {index : UInt16} {f : Tagged (Array UInt16)}
    (h : t.feature index.toNat = .ok f) : t.featureLookups index = .ok f.item := by
  rw [feature] at h
  rw [featureLookups]
  cases hf : t.features[index.toNat]? with
  | none =>
    rw [hf] at h
    cases h
  | some f' =>
    rw [hf] at h
    cases h
    rfl

theorem featureTags_eq_ok {tags : Array Tag} (h : t.featureTags script language = .ok tags) :
    ∃ system, t.langSys script language = .ok system ∧
      List.Forall₂ (fun index tag => ∃ f, t.feature index.toNat = .ok f ∧ f.tag = tag)
        system.features.toList tags.toList := by
  obtain ⟨system, hsystem, htags⟩ := except_bind_eq_ok.mp h
  refine ⟨system, hsystem, (except_mapM_each htags).imp fun index tag htag => ?_⟩
  obtain ⟨f, hf, hpure⟩ := except_bind_eq_ok.mp htag
  cases hpure
  exact ⟨f, LayoutError.ofParse_eq_ok hf, rfl⟩

/-- Where the tags of all features can be listed, a feature is selected where its tag is
    listed first. -/
theorem selectFeature_agrees {tags : Array Tag} (htags : t.featureTags script language = .ok tags) :
    ∃ system answer, t.langSys script language = .ok system ∧
      t.selectFeature tag script language = .ok answer ∧ (answer = none ↔ tag ∉ tags) ∧ ∀ index,
        (answer = some index ↔ ∃ k, FirstAt tags tag k ∧ system.features[k]? = some index) ∧
        (answer = some index → ∃ lookups, t.featureLookups index = .ok lookups) := by
  obtain ⟨system, hsystem, heach⟩ := featureTags_eq_ok htags
  -- the search among the features is one among the tags that have been listed
  have hselect : t.selectFeature tag script language = .ok
      ((tags.findIdx? fun x => x = tag).bind fun k => system.features[k]?) := by
    have hfind : t.findFeature tag system.features.toList = .ok _ := findFeature_eq heach
    simp only [Array.getElem?_toList] at hfind
    rw [selectFeature, hsystem, ← tags.toArray_toList, List.findIdx?_toArray]
    exact hfind
  refine ⟨system, _, hsystem, hselect, ?_⟩
  -- the tag is listed nowhere, or there is a first place where it is listed
  cases hfound : tags.findIdx? fun x => x = tag with
  | none =>
    have hmissing := findIdx?_eq_none_iff_not_mem.mp hfound
    refine ⟨iff_of_true rfl hmissing, fun index => ⟨?_, fun h => nomatch h⟩⟩
    exact iff_of_false (fun h => nomatch h) fun ⟨k, hk, _⟩ => hmissing (Array.mem_of_getElem? hk.1)
  -- at this place there is a feature, as the tag that is listed comes from it
  | some k =>
    have hfirst := findIdx?_eq_some_iff_firstAt.mp hfound
    obtain ⟨index, hindex, f, hf, -⟩ :=
      exists_of_forall₂ heach (by rw [Array.getElem?_toList]; exact hfirst.1)
    rw [Array.getElem?_toList] at hindex
    rw [Option.bind_some, hindex]
    refine ⟨iff_of_false (fun h => nomatch h) fun h => h (Array.mem_of_getElem? hfirst.1), ?_⟩
    refine fun other => ⟨⟨?_, ?_⟩, ?_⟩
    -- the answer is the first one, and no other index can be the answer
    · rintro ⟨⟩
      exact ⟨k, hfirst, hindex⟩
    · rintro ⟨j, hj, hother⟩
      rw [← hother, hj.unique hfirst, hindex]
    · rintro ⟨⟩
      exact ⟨f.item, featureLookups_of_feature hf⟩

/-! ### What is refused -/

/-- A feature that is missing is the fault of the font. -/
theorem findFeature_ne_invalidArgument {indices : List UInt16} :
    t.findFeature tag indices ≠ .error .invalidArgument := by
  induction indices with
  | nil => exact fun h => nomatch h
  | cons index rest ih =>
    rw [findFeature]
    split
    · exact fun h => nomatch h
    · split
      · exact fun h => nomatch h
      · exact ih

theorem selectFeature_invalidArgument_iff :
    t.selectFeature tag script language = .error .invalidArgument ↔
      t.langSys script language = .error .invalidArgument := by
  rw [selectFeature, except_bind_eq_error]
  exact or_iff_left fun ⟨_, _, h⟩ => findFeature_ne_invalidArgument h

theorem featureTags_invalidArgument_iff : t.featureTags script language = .error .invalidArgument ↔
    t.langSys script language = .error .invalidArgument := by
  rw [featureTags, except_bind_eq_error]
  refine or_iff_left fun ⟨system, _, h⟩ => ?_
  obtain ⟨index, -, hindex⟩ := except_mapM_eq_error h
  cases hfeature : t.feature index.toNat <;> rw [hfeature] at hindex <;> cases hindex

end LayoutTable

/-! ## §4 What is stored -/

/-- The words of a tag and of an offset with it. -/
def taggedWords (record : Tag × UInt16) : List UInt16 :=
  FixedRecord.halves record.1.code ++ [record.2]

theorem storedAs_tagged : (FixedRecord.pair .tag .u16).StoredAs taggedWords :=
  (FixedRecord.storedAs_u32.map Tag.code (fun _ => rfl) fun _ => rfl).pair FixedRecord.storedAs_u16

/-- Behind some words of a window there are tags with offsets, and their number is in front of them.
    Each item has its tag, and it is at its offset. -/
def StoresTagged {α : Type} (w : Window) (ns : List UInt16) (R : Window → α → Prop)
    (items : Array (Tagged α)) : Prop :=
  ∃ records : Array (Tag × UInt16), records.size ≤ 0xFFFF ∧
    wordsBytes (ns ++ countedWords taggedWords records) <+: w.toList ∧
    List.Forall₂ (fun record item => item.tag = record.1 ∧ R (w.offset record.2.toNat) item.item)
      records.toList items.toList

section

variable {α : Type} {w : Window} {ns : List UInt16} {R : Window → α → Prop}

theorem StoresTagged.size_le {items : Array (Tagged α)} (h : StoresTagged w ns R items) :
    items.size ≤ 0xFFFF := by
  obtain ⟨records, hsize, -, heach⟩ := h
  have hlength := heach.length_eq
  rw [Array.length_toList, Array.length_toList] at hlength
  omega

/-- Behind words, a list of tagged items is read. -/
theorem ensuresFrom_taggedList {c : Cursor} (hc : c.Behind w ns)
    {decodeOne : Window → Except ParseError α} (h : ∀ v, Ensures (decodeOne v) (R v)) :
    Decoder.EnsuresFrom c (Decoder.taggedList w decodeOne)
      fun items _ => StoresTagged w ns R items := by
  refine Decoder.ensuresFrom_bind (Decoder.ensuresFrom_count hc) fun k c ⟨n, hn, hc⟩ => ?_
  refine Decoder.ensuresFrom_bind (Decoder.ensuresFrom_array storedAs_tagged k hc)
    fun records c ⟨hsize, hc⟩ => ?_
  have hcounted : ns ++ [n] ++ records.toList.flatMap taggedWords =
      ns ++ countedWords taggedWords records := by
    rw [countedWords, hsize, ← hn, UInt16.ofNat_toNat, List.append_assoc]
    rfl
  have hle : records.size ≤ 0xFFFF := by
    have hlt := n.toNat_lt
    omega
  refine ensures_mono (Decoder.ensuresFrom_of_ensures (ensures_mapM_each
    (R := fun (record : Tag × UInt16) (item : Tagged α) =>
      item.tag = record.1 ∧ R (w.offset record.2.toNat) item.item) fun record => ?_))
    fun answer heach => ⟨records, hle, hcounted ▸ hc.bytes, heach⟩
  exact ensures_bind (ensures_lift (h _)) fun item hitem => ensures_pure ⟨rfl, hitem⟩

end

/-- A window begins with the offset of the default language system, and behind it are the
    languages. -/
def Script.StoredAt (w : Window) (s : Script) : Prop :=
  ∃ (n : UInt16) (default : Option LangSys),
    w.Leads n (fun v system => LangSys.ofWindow v = .ok system) default ∧
    s.default = default.getD .empty ∧
    StoresTagged w [n] (fun v system => LangSys.ofWindow v = .ok system) s.languages

theorem Script.ensures_ofWindow (w : Window) : Ensures (ofWindow w) (StoredAt w) := by
  refine ensures_decode_from (Decoder.ensuresFrom_word_bind (.ofWindow w) fun n c hc =>
    Decoder.ensuresFrom_nullable_bind (R := fun v system => LangSys.ofWindow v = .ok system)
      (fun _ _ h => h) fun default hdefault => ?_)
  exact Decoder.ensuresFrom_bind
    (ensuresFrom_taggedList hc fun _ _ h => h) fun languages _ hlanguages =>
    Decoder.ensuresFrom_pure ⟨n, default, hdefault, rfl, hlanguages⟩

/-- The scripts that are read are those that are stored, but for those that offer nothing. -/
theorem ensures_scriptsOfWindow (w : Window) :
    Ensures (scriptsOfWindow w) fun scripts => ∃ stored, StoresTagged w [] Script.StoredAt stored ∧
      scripts = stored.filter fun s => !s.item.isEmpty :=
  ensures_decode_from <|
    Decoder.ensuresFrom_bind (ensuresFrom_taggedList (.ofWindow w) Script.ensures_ofWindow)
      fun stored _ hstored => Decoder.ensuresFrom_pure ⟨stored, hstored, rfl⟩

namespace LayoutTable

/-- The scripts that are stored in a layout table, also those that offer nothing. The header has the
    offset of their list, which is empty if the offset is zero. -/
def StoresScripts (w : Window) (stored : Array (Tagged Script)) : Prop :=
  ∃ (minor scripts features lookups : UInt16) (list : Option (Array (Tagged Script))),
    wordsBytes [1, minor, scripts, features, lookups] <+: w.toList ∧
    w.Leads scripts (fun v list => StoresTagged v [] Script.StoredAt list) list ∧
    stored = list.getD #[]

theorem StoresScripts.storesTagged {w : Window} {stored : Array (Tagged Script)}
    (h : StoresScripts w stored) :
    stored = #[] ∨ ∃ v, StoresTagged v [] Script.StoredAt stored := by
  obtain ⟨_, _, _, _, list, -, hlist, rfl⟩ := h
  cases list with
  | none => exact .inl rfl
  | some list => exact .inr ⟨_, hlist.2⟩

/-- A layout table that has been read has the scripts that are stored, but for those that
    offer nothing. -/
theorem ensures_scripts {S : Type} [LookupFamily S] {m : Type → Type} [Monad m]
    [MonadExceptOf ParseError m] [SharedTables m] [Loader m] (w : Window) :
    Ensures (load w : m (LayoutTable S)) fun t => ∃ stored, StoresScripts w stored ∧
      t.scripts = stored.filter fun s => !s.item.isEmpty := by
  -- the header is read word by word, and what has been read is known of the bytes
  refine ensures_decode_from (Decoder.ensuresFrom_word_bind (.ofWindow w) fun major c hc => ?_)
  refine Decoder.ensuresFrom_word_bind hc fun minor c hc => ?_
  refine Decoder.ensuresFrom_word_bind hc fun scripts c hc => ?_
  refine Decoder.ensuresFrom_word_bind hc fun features c hc => ?_
  refine Decoder.ensuresFrom_word_bind hc fun lookups c hc => ?_
  refine Decoder.ensuresFrom_demand_bind fun hmajor => ?_
  obtain rfl := of_decide_eq_true hmajor
  -- only the list of scripts matters, and the other lists are read behind it
  refine Decoder.ensuresFrom_nullable_bind (fun v => ensures_ofExcept (ensures_scriptsOfWindow v))
    fun answer hanswer => ?_
  refine Decoder.ensuresFrom_of_ensures
    (ensures_after fun _ => ensures_after fun _ => ensures_pure ?_)
  cases answer with
  | none => exact ⟨#[], ⟨minor, scripts, features, lookups, none, hc.bytes, hanswer, rfl⟩, by simp⟩
  | some kept =>
    obtain ⟨hleads, stored, hstored, hkept⟩ := hanswer
    exact ⟨stored,
      ⟨minor, scripts, features, lookups, some stored, hc.bytes, ⟨hleads, hstored⟩, rfl⟩, hkept⟩

/-! ## §5 Selecting from what has been read -/

variable {S : Type}

/-- Selecting goes by what is listed. -/
structure SelectionAgrees (t : LayoutTable S) : Prop where
  /-- A script is selected where its tag is listed first. -/
  script : ∀ tag, (t.selectScript tag = none ↔ tag ∉ t.scriptTags) ∧
    ∀ i, t.selectScript tag = some i ↔ FirstAt t.scriptTags tag i.toNat
  /-- A language system is selected where its tag is listed first, together with the required
      feature that is reported for it. Its index is not the one that stands for the default
      language system. -/
  language : ∀ script tags, t.languageTags script = .ok tags → ∀ tag, ∃ answer,
    t.selectLanguage tag script = .ok answer ∧ (answer = none ↔ tag ∉ tags) ∧
      ∀ language required, answer = some (language, required) ↔
        FirstAt tags tag language.toNat ∧ language ≠ defaultLanguage ∧
        ∃ feature, t.requiredFeature script language = .ok feature ∧
          required = feature.getD noFeature
  /-- If the tags of all features can be listed, a feature is selected by the place where its tag is
      listed first, and its lookups can be asked for. -/
  feature : ∀ script language tags, t.featureTags script language = .ok tags → ∀ tag,
    ∃ system answer,
      t.langSys script language = .ok system ∧ t.selectFeature tag script language = .ok answer ∧
      (answer = none ↔ tag ∉ tags) ∧ ∀ index,
        (answer = some index ↔ ∃ k, FirstAt tags tag k ∧ system.features[k]? = some index) ∧
        (answer = some index → ∃ lookups, t.featureLookups index = .ok lookups)
  selectLanguage_refused : ∀ tag script,
    t.selectLanguage tag script = .error .invalidArgument ↔ t.scriptTags.size ≤ script.toNat
  languageTags_refused : ∀ script,
    t.languageTags script = .error .invalidArgument ↔ t.scriptTags.size ≤ script.toNat
  selectFeature_refused : ∀ tag script language,
    t.selectFeature tag script language = .error .invalidArgument ↔ t.OutOfRange script language
  featureTags_refused : ∀ script language,
    t.featureTags script language = .error .invalidArgument ↔ t.OutOfRange script language
  requiredFeature_refused : ∀ script language,
    t.requiredFeature script language = .error .invalidArgument ↔ t.OutOfRange script language

/-- Selecting goes by what is listed if the lengths of the lists have sixteen bits. -/
theorem selectionAgrees_of_sizes {t : LayoutTable S} (hscripts : t.scripts.size ≤ 0xFFFF)
    (hlanguages : ∀ s ∈ t.scripts, s.item.languages.size ≤ 0xFFFF) : t.SelectionAgrees where
  -- all indices fit a word, as the lists are no longer than that
  script tag := ⟨selectScript_eq_none, fun i => selectScript_eq_some hscripts⟩
  language script tags htags tag := by
    refine selectLanguage_agrees (fun s hs => ?_) htags
    rw [LayoutTable.script] at hs
    cases hget : t.scripts[script.toNat]? with
    | none =>
      rw [hget] at hs
      cases hs
    | some found =>
      rw [hget] at hs
      cases hs
      exact hlanguages found (Array.mem_of_getElem? hget)
  feature script language tags htags tag := selectFeature_agrees htags
  selectLanguage_refused tag script := by
    rw [selectLanguage_eq_error, script_eq_error]
    exact and_iff_right rfl
  languageTags_refused script := by
    rw [languageTags_eq_error, script_eq_error]
    exact and_iff_right rfl
  selectFeature_refused tag script language := by
    rw [selectFeature_invalidArgument_iff, langSys_eq_error]
    exact and_iff_right rfl
  featureTags_refused script language := by
    rw [featureTags_invalidArgument_iff, langSys_eq_error]
    exact and_iff_right rfl
  requiredFeature_refused script language := by
    rw [requiredFeature_eq_error, langSys_eq_error]
    exact and_iff_right rfl

/-- **Selecting and listing.** In a layout table that has been read, scripts, language systems and
    features are selected where their tags are listed first, and they are not found only if their
    tags are not listed. Indices are refused if they are out of range, and for no other reason.
    Scripts that offer nothing are dropped when the table is read. The others are in the order in
    which they are stored, and each has its own language systems. -/
theorem selection_agrees [LookupFamily S] (w : Window) (t : LayoutTable S)
    (hread : ofWindow w = .ok t) :
    t.SelectionAgrees ∧
      ∃ stored, StoresScripts w stored ∧ t.scripts = stored.filter fun s => !s.item.isEmpty := by
  obtain ⟨stored, hstored, hkept⟩ := CachedLoad.of_result (ensures_scripts w) hread
  refine ⟨selectionAgrees_of_sizes ?_ fun s hs => ?_, stored, hstored, hkept⟩
  · -- the number of scripts that are stored has sixteen bits, and dropping some makes it no larger
    have hle : (stored.filter fun s => !s.item.isEmpty).size ≤ stored.size := Array.size_filter_le
    rw [hkept]
    refine Nat.le_trans hle ?_
    rcases hstored.storesTagged with rfl | ⟨v, htagged⟩
    · exact Nat.zero_le _
    · exact htagged.size_le
  · rw [hkept] at hs
    have hs : s ∈ stored := (Array.mem_filter.mp hs).1
    rcases hstored.storesTagged with rfl | ⟨v, records, -, -, heach⟩
    · exact absurd hs (Array.not_mem_empty s)
    · obtain ⟨i, hi⟩ := List.getElem?_of_mem (Array.mem_toList_iff.mpr hs)
      obtain ⟨record, -, -, n, default, -, -, hlanguages⟩ := exists_of_forall₂ heach hi
      exact hlanguages.size_le

end LayoutTable

namespace TwoScripts

/-- A script that offers nothing, and behind it one with a language. The language has two features
    with the same tag, the second one first. -/
def data : ByteArray := ⟨#[
  0x00, 0x01, 0x00, 0x00, 0x00, 0x0A, 0x00, 0x30, 0x00, 0x00,
  0x00, 0x02, 0x61, 0x72, 0x61, 0x62, 0x00, 0x0E, 0x6C, 0x61, 0x74, 0x6E, 0x00, 0x12,
  0x00, 0x00, 0x00, 0x00,
  0x00, 0x00, 0x00, 0x01, 0x54, 0x52, 0x4B, 0x20, 0x00, 0x0A,
  0x00, 0x00, 0xFF, 0xFF, 0x00, 0x02, 0x00, 0x01, 0x00, 0x00,
  0x00, 0x02, 0x6C, 0x69, 0x67, 0x61, 0x00, 0x0E, 0x6C, 0x69, 0x67, 0x61, 0x00, 0x0E,
  0x00, 0x00, 0x00, 0x00]⟩

def latin : Tag := ⟨0x6C61746E⟩
def turkish : Tag := ⟨0x54524B20⟩
def ligatures : Tag := ⟨0x6C696761⟩

def table : LayoutTable Substitution where
  scripts := #[⟨latin, .empty, #[⟨turkish, noFeature, #[1, 0]⟩]⟩]
  features := #[⟨ligatures, #[]⟩, ⟨ligatures, #[]⟩]
  lookups := #[]

/-- The script that is left has index 0, its language has the language system with index 0, and of
    both features the one that is listed first is selected. -/
theorem latin_selected :
    LayoutTable.ofWindow (.ofBytes data) = .ok table ∧ table.selectScript latin = some 0 ∧
    table.selectLanguage turkish 0 = .ok (some (0, noFeature)) ∧
    table.selectFeature ligatures 0 0 = .ok (some 1) ∧
    table.selectFeature ligatures 0 1 = .error .invalidArgument := by
  have hread : LayoutTable.ofWindow (.ofBytes data) = .ok table := by decide +kernel
  obtain ⟨hagrees, -⟩ := LayoutTable.selection_agrees (.ofBytes data) table hread
  -- the lists of this table, which the general statement is about
  have hlanguages : table.languageTags 0 = .ok #[turkish] := by decide +kernel
  have hfeatures : table.featureTags 0 0 = .ok #[ligatures, ligatures] := by decide +kernel
  obtain ⟨language, hlanguage, -, hfirstLanguage⟩ := hagrees.language 0 _ hlanguages turkish
  obtain ⟨system, feature, hsystem, hfeature, -, hfirstFeature⟩ :=
    hagrees.feature 0 0 _ hfeatures ligatures
  -- the default language system lists two features with the same tag
  have hlisted : table.langSys 0 0 = .ok ⟨noFeature, #[1, 0]⟩ := rfl
  cases hlisted.symm.trans hsystem
  -- a first item is the first one with its tag
  have hzero : ∀ {tags : Array Tag} {tag : Tag}, tags[0]? = some tag → FirstAt tags tag 0 :=
    fun h => ⟨h, fun j hj => absurd hj (Nat.not_lt_zero j)⟩
  refine ⟨hread, ((hagrees.script latin).2 0).mpr (hzero (by decide +kernel)), ?_, ?_, ?_⟩
  · rw [hlanguage, (hfirstLanguage 0 noFeature).mpr ⟨hzero rfl, by decide, none, rfl, rfl⟩]
  · rw [hfeature, (hfirstFeature 1).1.mpr ⟨0, hzero rfl, rfl⟩]
  · exact (hagrees.selectFeature_refused ligatures 0 1).mpr
      (.inr ⟨by decide, _, hlanguages, by decide⟩)

end TwoScripts

end OpenTypeLayout
