import OpenTypeLayout.Proofs.LoadComparison

/-!
# Decoding shared tables once

While a layout table is loaded, coverage tables and class definitions are kept under the places
where they begin. The length of the window is not part of the key, so this is right only because all
windows that the cache is asked about end at the same place.

- `DecodeCache.Honest` says that what is kept is what decoding afresh would give.
- `RecordedLoad` is loading with a cache that also notes the windows the cache is asked about, and
  keeps the notes when the load fails.
- `LayoutTable.sharesTables` is the result: the cache makes no difference, and where windows begin
  determines what they hold.
-/

namespace OpenTypeLayout

/-! ## §1 Caches -/

namespace DecodeCache

variable {α : Type} {c : DecodeCache α} {decodeOne : Window → Except ParseError α}
    {w whole : Window}

/-- What is kept for the place where a suffix begins is what decoding the suffix gives. -/
def Honest (c : DecodeCache α) (decodeOne : Window → Except ParseError α) (whole : Window) : Prop :=
  ∀ w value, w.IsSuffix whole → c.entries[w.base]? = some value → decodeOne w = .ok value

theorem honest_empty : Honest {} decodeOne whole := by
  intro w value _ hkept
  simp at hkept

/-- A value that has been decoded may be kept: no other suffix begins at the same place. -/
theorem Honest.insert (hc : c.Honest decodeOne whole) (hw : w.IsSuffix whole) {value : α}
    (hvalue : decodeOne w = .ok value) :
    Honest ⟨c.entries.insert w.base value⟩ decodeOne whole := by
  intro v kept hv hkept
  rw [Std.HashMap.getElem?_insert] at hkept
  split at hkept
  case isTrue hbase =>
    cases hkept
    rwa [← hw.eq_of_base hv (by simpa using hbase)]
  case isFalse => exact hc v kept hv hkept

/-- An honest cache gives what decoding gives, and is still honest then. -/
theorem Honest.fetch (hc : c.Honest decodeOne whole) (hw : w.IsSuffix whole) :
    ∃ c' : DecodeCache α, c'.Honest decodeOne whole ∧
      c.fetch decodeOne w = (decodeOne w).map fun value => (value, c') := by
  unfold DecodeCache.fetch
  split
  case h_1 value hkept =>
    refine ⟨c, hc, ?_⟩
    rw [hc w value hw hkept]
    rfl
  case h_2 =>
    cases hvalue : decodeOne w with
    | error e => exact ⟨c, hc, rfl⟩
    | ok value => exact ⟨_, hc.insert hw hvalue, rfl⟩

end DecodeCache

/-- Both caches of a load are honest. -/
structure LoadCache.Honest (cache : LoadCache) (whole : Window) : Prop where
  coverages : cache.coverages.Honest Coverage.ofWindow whole
  classDefs : cache.classDefs.Honest ClassDef.ofWindow whole

theorem LoadCache.honest_empty (whole : Window) : LoadCache.Honest {} whole where
  coverages := DecodeCache.honest_empty
  classDefs := DecodeCache.honest_empty

/-! ## §2 Noting what the cache is asked about -/

/-- What a load has kept, and the windows that it has asked its cache about, the last one first. -/
structure Recording where
  /-- What is kept. -/
  cache : LoadCache := {}
  /-- What has been asked about. -/
  asked : List Window := []

/-- Loading that keeps what it has decoded, and notes what it asks for. What has been noted outlasts
    a failure. -/
abbrev RecordedLoad := ExceptT ParseError (StateM Recording)

namespace RecordedLoad

variable {α : Type}

/-- The answer or the failure of a load, and the recording after it. -/
def outcome (load : RecordedLoad α) (r : Recording) : Except ParseError α × Recording :=
  (ExceptT.run load).run r

/-- Note a window, and ask the cache about it. -/
def ask (w : Window) (load : CachedLoad α) : RecordedLoad α :=
  ExceptT.mk fun r => match load.run r.cache with
    | .ok (a, cache) => (.ok a, ⟨cache, w :: r.asked⟩)
    | .error e => (.error e, ⟨r.cache, w :: r.asked⟩)

instance : SharedTables RecordedLoad where
  coverage w := ask w (SharedTables.coverage w)
  classDef w := ask w (SharedTables.classDef w)

theorem outcome_pure (a : α) (r : Recording) : outcome (pure a) r = (.ok a, r) := rfl

theorem outcome_throw (e : ParseError) (r : Recording) :
    outcome (throw e : RecordedLoad α) r = (.error e, r) := rfl

theorem outcome_bind {β : Type} (load : RecordedLoad α) (f : α → RecordedLoad β) (r : Recording) :
    outcome (load >>= f) r = match outcome load r with
      | (.ok a, r') => outcome (f a) r'
      | (.error e, r') => (.error e, r') := by
  unfold outcome
  rw [ExceptT.run_bind, StateT.run_bind]
  rcases (ExceptT.run load).run r with ⟨e | a, r'⟩ <;> rfl

theorem outcome_ask (w : Window) (load : CachedLoad α) (r : Recording) :
    outcome (ask w load) r = match load.run r.cache with
      | .ok (a, cache) => (.ok a, ⟨cache, w :: r.asked⟩)
      | .error e => (.error e, ⟨r.cache, w :: r.asked⟩) := rfl

/-! ### Without the notes -/

/-- Taking notes changes nothing: as long as no read fails, what is kept is the same, and so is the
    answer. -/
def Erases (x : RecordedLoad α) (y : CachedLoad α) : Prop :=
  ∀ r, y.run r.cache = (outcome x r).1.map fun a => (a, (outcome x r).2.cache)

theorem erases_ask (w : Window) (load : CachedLoad α) : Erases (ask w load) load := by
  intro r
  rw [outcome_ask]
  rcases load.run r.cache with e | ⟨a, cache⟩ <;> rfl

/-- Loading with notes and loading without them. -/
def erasure (whole : Window) : SharedComparison whole RecordedLoad CachedLoad where
  lawful_left := inferInstance
  lawful_right := inferInstance
  -- erasing the record gives the plain load, and what is said of answers holds of the recorded one
  Alike x y P := Erases x y ∧ ∀ r a, (outcome x r).1 = .ok a → P a
  alike_pure ha := by
    refine ⟨fun r => rfl, fun r a h => ?_⟩
    rw [outcome_pure] at h
    cases h
    exact ha
  alike_bind {_ _ x _ f _ _ _} hx hf := by
    refine ⟨fun r => ?_, fun r b h => ?_⟩
    · rw [StateT.run_bind, hx.1 r, outcome_bind]
      rcases hrun : outcome x r with ⟨e | a, r'⟩
      · rfl
      · exact (hf a (hx.2 r a (by rw [hrun]))).1 r'
    · rw [outcome_bind] at h
      rcases hrun : outcome x r with ⟨e | a, r'⟩
      · rw [hrun] at h
        cases h
      · rw [hrun] at h
        exact (hf a (hx.2 r a (by rw [hrun]))).2 r' b h
  alike_throw e := by
    refine ⟨fun r => rfl, fun r a h => ?_⟩
    rw [outcome_throw] at h
    cases h
  same_sharedCoverage _ := ⟨erases_ask _ _, fun _ _ _ => trivial⟩
  same_sharedClassDef _ := ⟨erases_ask _ _, fun _ _ _ => trivial⟩

end RecordedLoad

/-! ## §3 With an honest cache -/

/-- The caches are honest, and whatever they have been asked about is a suffix of the window that is
    loaded. -/
structure Recording.Faithful (r : Recording) (whole : Window) : Prop where
  cache : r.cache.Honest whole
  asked : ∀ w ∈ r.asked, w.IsSuffix whole

theorem Recording.faithful_empty (whole : Window) : Recording.Faithful {} whole where
  cache := LoadCache.honest_empty whole
  asked := by simp

namespace RecordedLoad

variable {α : Type} {w whole : Window}

/-- From a faithful recording the load answers what decoding afresh does, and the recording after it
    is faithful again. -/
def Confirms (whole : Window) (x : RecordedLoad α) (y : Except ParseError α) : Prop :=
  ∀ r, r.Faithful whole → (outcome x r).1 = y ∧ (outcome x r).2.Faithful whole

theorem confirms_bind {β : Type} {x : RecordedLoad α} {y : Except ParseError α}
    {f : α → RecordedLoad β} {g : α → Except ParseError β} (hx : Confirms whole x y)
    (hf : ∀ a, y = .ok a → Confirms whole (f a) (g a)) : Confirms whole (x >>= f) (y >>= g) := by
  intro r hr
  obtain ⟨rfl, hr'⟩ := hx r hr
  rw [outcome_bind]
  rcases hrun : outcome x r with ⟨e | a, r'⟩
  · rw [hrun] at hr'
    exact ⟨rfl, hr'⟩
  · rw [hrun] at hr'
    exact hf a (by rw [hrun]) r' hr'

/-- Asking about a suffix is right if the cache is, and stays so. -/
theorem confirms_ask (hw : w.IsSuffix whole) {load : CachedLoad α} {y : Except ParseError α}
    (h : ∀ cache : LoadCache, cache.Honest whole → ∃ cache' : LoadCache, cache'.Honest whole ∧
      load.run cache = y.map fun a => (a, cache')) : Confirms whole (ask w load) y := by
  intro r hr
  have hasked : ∀ v ∈ w :: r.asked, v.IsSuffix whole := List.forall_mem_cons.mpr ⟨hw, hr.asked⟩
  obtain ⟨cache', hcache', hrun⟩ := h r.cache hr.cache
  rw [outcome_ask, hrun]
  cases y with
  | error e => exact ⟨rfl, hr.cache, hasked⟩
  | ok a => exact ⟨rfl, hcache', hasked⟩

theorem confirms_coverage (hw : w.IsSuffix whole) :
    Confirms whole (SharedTables.coverage w) (Coverage.ofWindow w) := by
  refine confirms_ask hw fun cache hcache => ?_
  obtain ⟨coverages, hcoverages, hfetch⟩ := hcache.coverages.fetch hw
  refine ⟨{ cache with coverages }, ⟨hcoverages, hcache.classDefs⟩, ?_⟩
  show (cache.coverages.fetch Coverage.ofWindow w).map _ = _
  rw [hfetch]
  cases Coverage.ofWindow w <;> rfl

theorem confirms_classDef (hw : w.IsSuffix whole) :
    Confirms whole (SharedTables.classDef w) (ClassDef.ofWindow w) := by
  refine confirms_ask hw fun cache hcache => ?_
  obtain ⟨classDefs, hclassDefs, hfetch⟩ := hcache.classDefs.fetch hw
  refine ⟨{ cache with classDefs }, ⟨hcache.coverages, hclassDefs⟩, ?_⟩
  show (cache.classDefs.fetch ClassDef.ofWindow w).map _ = _
  rw [hfetch]
  cases ClassDef.ofWindow w <;> rfl

/-- Loading with a cache and decoding afresh. -/
def freshness (whole : Window) : SharedComparison whole RecordedLoad (Except ParseError) where
  lawful_left := inferInstance
  lawful_right := inferInstance
  Alike x y P := Confirms whole x y ∧ ∀ a, y = .ok a → P a
  alike_pure ha := by
    refine ⟨fun r hr => ⟨rfl, hr⟩, fun a h => ?_⟩
    cases h
    exact ha
  alike_bind {_ _ _ y _ _ _ _} hx hf := by
    refine ⟨confirms_bind hx.1 fun a ha => (hf a (hx.2 a ha)).1, fun b hb => ?_⟩
    cases y with
    | error e => cases hb
    | ok a => exact (hf a (hx.2 a rfl)).2 b hb
  alike_throw e := ⟨fun r hr => ⟨rfl, hr⟩, fun a h => by cases h⟩
  same_sharedCoverage hw := ⟨confirms_coverage hw, fun _ _ => trivial⟩
  same_sharedClassDef hw := ⟨confirms_classDef hw, fun _ _ => trivial⟩

/-- From honest caches, loading answers what decoding afresh does. -/
theorem afresh_of_run {x : RecordedLoad α} {y : CachedLoad α} {z : Except ParseError α}
    (hxy : Erases x y) (hxz : Confirms whole x z) {cache cache' : LoadCache}
    (hcache : cache.Honest whole) {a : α} (hrun : y.run cache = .ok (a, cache')) : z = .ok a := by
  have hfaithful : Recording.Faithful ⟨cache, []⟩ whole := ⟨hcache, by simp⟩
  have hanswer : y.run cache = _ := hxy ⟨cache, []⟩
  rw [(hxz ⟨cache, []⟩ hfaithful).1, hrun] at hanswer
  cases z with
  | error e => cases hanswer
  | ok b =>
    cases hanswer
    rfl

/-- With nothing kept at first, loading answers what decoding afresh does. -/
theorem result_eq_afresh {x : RecordedLoad α} {y : CachedLoad α} {z : Except ParseError α}
    (hxy : Erases x y) (hxz : Confirms whole x z) : y.result = z := by
  have hrun : y.run {} = _ := hxy {}
  rw [(hxz {} (Recording.faithful_empty whole)).1] at hrun
  unfold CachedLoad.result
  rw [hrun]
  cases z <;> rfl

end RecordedLoad

theorem PairPos.result_load (w : Window) :
    (PairPos.load w : CachedLoad PairPos).result = PairPos.load w :=
  RecordedLoad.result_eq_afresh ((RecordedLoad.erasure w).same_pairPos (.refl w)).1
    ((RecordedLoad.freshness w).same_pairPos (.refl w)).1

theorem ReverseSubst.result_load (w : Window) :
    (ReverseSubst.load w : CachedLoad ReverseSubst).result = ReverseSubst.load w :=
  RecordedLoad.result_eq_afresh ((RecordedLoad.erasure w).same_reverseSubst (.refl w)).1
    ((RecordedLoad.freshness w).same_reverseSubst (.refl w)).1

theorem LookupFamily.result_load {S : Type} [LookupFamily S] [UniformFamily S] {whole : Window}
    (type : UInt16) {subtables : Array Window} (h : ∀ w ∈ subtables, w.IsSuffix whole) :
    (LookupFamily.load type subtables : CachedLoad S).result = LookupFamily.load type subtables :=
  RecordedLoad.result_eq_afresh (UniformFamily.same_load (RecordedLoad.erasure whole) type h).1
    (UniformFamily.same_load (RecordedLoad.freshness whole) type h).1

/-! ## §4 Whole tables -/

namespace LayoutTable

variable {S : Type} [LookupFamily S] [UniformFamily S]

/-- The windows that a load of a layout table asks its cache about, until it is done or fails. -/
def askedFor (S : Type) [LookupFamily S] (w : Window) : List Window :=
  (RecordedLoad.outcome (load w : RecordedLoad (LayoutTable S)) {}).2.asked

theorem confirms_load (w : Window) :
    RecordedLoad.Confirms w (load w : RecordedLoad (LayoutTable S)) (ofWindowAfresh w) :=
  ((RecordedLoad.freshness w).same_layoutTable (.refl w)).1

theorem ofWindow_eq_afresh (w : Window) :
    (ofWindow w : Except ParseError (LayoutTable S)) = ofWindowAfresh w :=
  RecordedLoad.result_eq_afresh ((RecordedLoad.erasure w).same_layoutTable (.refl w)).1
    (confirms_load w)

/-- The cache makes no difference to a load, because the place where a window begins
    determines it. -/
structure SharesTables (S : Type) [LookupFamily S] (w : Window) : Prop where
  /-- With the cache and without it, there is the same table or the same failure. -/
  same : (ofWindow w : Except ParseError (LayoutTable S)) = ofWindowAfresh w
  /-- Whatever the cache is asked about has been reached by following offsets. -/
  reached : ∀ v ∈ askedFor S w, ∃ offsets : List Nat, v = offsets.foldl Window.offset w
  /-- The cache is not asked about two windows that begin at the same place and differ. -/
  determined : ∀ u ∈ askedFor S w, ∀ v ∈ askedFor S w, u.base = v.base → u = v

theorem sharesTables_of_uniform (w : Window) : SharesTables S w := by
  obtain ⟨-, hfaithful⟩ := confirms_load (S := S) w {} (Recording.faithful_empty w)
  refine ⟨ofWindow_eq_afresh w, fun v hv => ?_, fun u hu v hv => ?_⟩
  · obtain ⟨n, rfl⟩ := hfaithful.asked v hv
    exact ⟨[n], rfl⟩
  · exact (hfaithful.asked u hu).eq_of_base (hfaithful.asked v hv)

/-- Loading a layout table of either kind with a cache for shared tables gives the table, or the
    failure, that decoding afresh gives. Offsets that lead to the same place lead to the same
    window, however many of them are followed, and also past the end of the data. -/
theorem sharesTables (w : Window) :
    SharesTables Substitution w ∧ SharesTables Positioning w ∧
    ∀ first second : List Nat,
      (first.foldl Window.offset w).base = (second.foldl Window.offset w).base →
        first.foldl Window.offset w = second.foldl Window.offset w :=
  ⟨sharesTables_of_uniform w, sharesTables_of_uniform w, fun first second =>
    (w.isSuffix_foldl_offset first).eq_of_base (w.isSuffix_foldl_offset second)⟩

end LayoutTable

end OpenTypeLayout
