import OpenTypeLayout.Gdef
import OpenTypeLayout.LayoutTable
import OpenTypeLayout.Proofs.PlainAnswers

/-!
# What loaded data satisfies

Font data is decoded in several monads: plainly, with a cache for shared tables, and from a cursor
on top of either. What holds of everything that a decoder answers is proved for all of them at once.

- `Loader m` is a monad with a notion of what holds of all answers. There is one instance for plain
  decoding, and one for adding a state.
- §2 goes through the ways in which decoders are put together, §3 through the reading of layout
  tables, and §4 through that of glyph definitions.
-/

namespace OpenTypeLayout

/-! ## §1 Answers -/

/-- A monad for decoding, with what it means that a condition holds of whatever a computation
    answers. -/
class Loader (m : Type → Type) [Monad m] [MonadExceptOf ParseError m] extends LawfulMonad m where
  /-- The condition holds of every answer. -/
  Ensures {α : Type} (x : m α) (P : α → Prop) : Prop
  ensures_true {α : Type} (x : m α) : Ensures x fun _ => True
  ensures_pure {α : Type} {a : α} {P : α → Prop} : P a → Ensures (pure a) P
  ensures_bind {α β : Type} {x : m α} {f : α → m β} {P : α → Prop} {Q : β → Prop} :
    Ensures x P → (∀ a, P a → Ensures (f a) Q) → Ensures (x >>= f) Q
  ensures_throw {α : Type} {P : α → Prop} (e : ParseError) : Ensures (throw e) P

export Loader (Ensures ensures_true ensures_pure ensures_bind ensures_throw)

/-- Plain decoding has at most one answer. -/
instance : Loader (Except ParseError) where
  Ensures x P := ∀ a, x = .ok a → P a
  ensures_true _ _ _ := trivial
  ensures_pure ha _ h := by
    cases h
    exact ha
  ensures_bind {_ _ x _ _ _} hx hf b h := by
    cases hrun : x with
    | error e =>
      rw [hrun] at h
      cases h
    | ok a =>
      rw [hrun] at h
      exact hf a (hx a hrun) b h
  ensures_throw _ _ h := by cases h

section

variable {m : Type → Type} [Monad m] [MonadExceptOf ParseError m] [Loader m]

/-- With a state, there is an answer for every state to begin with. -/
instance {σ : Type} : Loader (StateT σ m) where
  Ensures x P := ∀ s, Ensures (x.run s) fun answer => P answer.1
  ensures_true x s := ensures_true (x.run s)
  ensures_pure ha _ := ensures_pure ha
  ensures_bind hx hf s := ensures_bind (hx s) fun answer hanswer => hf answer.1 hanswer answer.2
  ensures_throw e _ := ensures_bind (ensures_throw e) fun _ h => h

variable {α β : Type} {P Q : α → Prop}

theorem ensures_run_iff {σ : Type} {x : StateT σ m α} :
    Ensures x P ↔ ∀ s, Ensures (x.run s) fun answer => P answer.1 := .rfl

theorem ensures_mono {x : m α} (hx : Ensures x P) (h : ∀ a, P a → Q a) : Ensures x Q := by
  rw [← bind_pure x]
  exact ensures_bind hx fun a ha => ensures_pure (h a ha)

theorem ensures_map {x : m α} {f : α → β} {Q : β → Prop} (hx : Ensures x P)
    (h : ∀ a, P a → Q (f a)) : Ensures (f <$> x) Q := by
  rw [← bind_pure_comp]
  exact ensures_bind hx fun a ha => ensures_pure (h a ha)

/-- What comes after an answer about which nothing needs to be known. -/
theorem ensures_after {x : m α} {f : α → m β} {Q : β → Prop} (h : ∀ a, Ensures (f a) Q) :
    Ensures (x >>= f) Q :=
  ensures_bind (ensures_true x) fun a _ => h a

end

/-! ## §2 Decoders -/

section

variable {m : Type → Type} [Monad m] [MonadExceptOf ParseError m] [Loader m]
variable {α β σ : Type} {P : α → Prop}

theorem ensures_demand {condition : Bool} {e : ParseError} :
    Ensures (demand condition e : m Unit) fun _ => condition = true := by
  unfold demand
  split
  case isTrue h => exact ensures_pure h
  case isFalse => exact ensures_throw e

theorem ensures_lift {x : m α} (hx : Ensures x P) : Ensures (StateT.lift x : StateT σ m α) P :=
  ensures_run_iff.mpr fun _ => ensures_bind hx fun _ ha => ensures_pure ha

theorem ensures_ofExcept {r : Except ParseError α} (h : ∀ a, r = .ok a → P a) :
    Ensures (MonadExcept.ofExcept r : m α) P := by
  cases r with
  | error e => exact ensures_throw e
  | ok a => exact ensures_pure (h a rfl)

/-- Item by item, what is answered is what decoding the item may answer. -/
theorem ensures_mapM_each {items : Array β} {f : β → m α} {R : β → α → Prop}
    (h : ∀ b, Ensures (f b) (R b)) :
    Ensures (items.mapM f) fun answers => List.Forall₂ R items.toList answers.toList := by
  have hlist : Ensures (items.toList.mapM f) fun answers =>
      List.Forall₂ R items.toList answers := by
    induction items.toList with
    | nil => exact ensures_pure .nil
    | cons b rest ih =>
      rw [List.mapM_cons]
      exact ensures_bind (h b) fun a ha => ensures_bind ih fun answers hanswers =>
        ensures_pure (.cons ha hanswers)
  rw [Array.mapM_eq_mapM_toList]
  exact ensures_map hlist fun answers hanswers => hanswers

theorem ensures_mapM {items : Array β} {f : β → m α} (h : ∀ b, Ensures (f b) P) :
    Ensures (items.mapM f) fun answers => answers.size = items.size ∧ ∀ a ∈ answers, P a := by
  refine ensures_mono (ensures_mapM_each h) fun answers hanswers => ⟨?_, fun a ha => ?_⟩
  · simpa using hanswers.length_eq.symm
  · obtain ⟨i, hi⟩ := List.getElem?_of_mem (Array.mem_toList_iff.mpr ha)
    exact (exists_of_forall₂ hanswers hi).elim fun _ hb => hb.2

theorem ensures_ofRead {f : Cursor → Except ParseError (α × Cursor)}
    (h : ∀ c answer, f c = .ok answer → P answer.1) :
    Ensures (Decoder.ofRead f : Decoder m α) P := by
  refine ensures_run_iff.mpr fun c => ?_
  show Ensures (Decoder.ofRead f c : m _) _
  unfold Decoder.ofRead
  split
  case h_1 answer hanswer => exact ensures_pure (h c answer hanswer)
  case h_2 e _ => exact ensures_throw e

theorem ensures_count : Ensures (Decoder.count : Decoder m Nat) fun n => n ≤ 0xFFFF :=
  ensures_after fun n => ensures_pure (Nat.le_of_lt_succ n.toNat_lt)

theorem ensures_u16s (n : Nat) : Ensures (Decoder.u16s n : Decoder m _) fun a => a.size = n := by
  apply ensures_ofRead
  intro c answer h
  unfold Cursor.readArray at h
  split at h
  case isTrue =>
    cases h
    exact Array.size_ofFn
  case isFalse => cases h

theorem ensures_decode {w : Window} {decoder : Decoder m α} (h : Ensures decoder P) :
    Ensures (w.decode decoder) P :=
  ensures_bind (ensures_run_iff.mp h (Cursor.ofWindow w)) fun _ ha => ensures_pure ha

theorem ensures_decodeEach (w : Window) (offsets : Array UInt16) {decodeOne : Window → m α}
    (h : ∀ w, Ensures (decodeOne w) P) :
    Ensures (w.decodeEach offsets decodeOne) fun answers =>
      answers.size = offsets.size ∧ ∀ a ∈ answers, P a :=
  ensures_lift (ensures_mapM fun _ => h _)

theorem ensures_decodeEachNullable (w : Window) (offsets : Array UInt16)
    {decodeOne : Window → m α} (h : ∀ w, Ensures (decodeOne w) P) :
    Ensures (w.decodeEachNullable offsets decodeOne) fun answers =>
      ∀ answer ∈ answers, ∀ a, answer = some a → P a := by
  apply ensures_lift
  refine ensures_mono (ensures_mapM fun n => ?_) fun _ hanswers => hanswers.2
  split
  · exact ensures_pure fun a ha => by cases ha
  · exact ensures_map (h _) fun a ha a' ha' => Option.some.inj ha' ▸ ha

theorem ensures_decodeNullable (w : Window) (n : UInt16) {decodeOne : Window → m α}
    (h : ∀ w, Ensures (decodeOne w) P) :
    Ensures (w.decodeNullable n decodeOne) fun answer => ∀ a, answer = some a → P a := by
  apply ensures_lift
  split
  · exact ensures_pure fun a ha => by cases ha
  · exact ensures_map (h _) fun a ha a' ha' => Option.some.inj ha' ▸ ha
  · exact ensures_throw _

end

/-! ## §3 Layout tables -/

section

variable {S : Type} [LookupFamily S] {m : Type → Type} [Monad m] [MonadExceptOf ParseError m]
variable [SharedTables m] [Loader m] {P : S → Prop}

/-- Extension subtables make no difference to what the subtables of a lookup satisfy. -/
theorem ensures_lookup_load
    (h : ∀ type subtables, Ensures (LookupFamily.load type subtables : m S) P) (w : Window) :
    Ensures (Lookup.load w : m (Lookup S)) fun l => P l.subtables := by
  apply ensures_decode
  refine ensures_after fun type => ensures_after fun flag => ensures_after fun count =>
    ensures_after fun offsets => ?_
  have hrest : ∀ type wrapped, Ensures (do
      return { flag := ⟨flag⟩, subtables := ← StateT.lift (LookupFamily.load type wrapped) } :
        Decoder m (Lookup S)) fun l => P l.subtables := by
    intro type wrapped
    exact ensures_bind (ensures_lift (h type wrapped)) fun subtables hsubtables =>
      ensures_pure hsubtables
  dsimp only
  -- wrapped or not, the subtables are read in the same way
  split
  · exact ensures_after fun unwrapped => hrest unwrapped.1 unwrapped.2
  · exact ensures_after fun unwrapped => hrest unwrapped.1 unwrapped.2

/-- What holds of the subtables of every lookup type holds of all lookups of a layout table. -/
theorem ensures_layoutTable_load
    (h : ∀ type subtables, Ensures (LookupFamily.load type subtables : m S) P) (w : Window) :
    Ensures (LayoutTable.load w : m (LayoutTable S)) fun t => ∀ l ∈ t.lookups, P l.subtables := by
  have hlist : ∀ w, Ensures (loadLookups w : m (Array (Lookup S))) fun lookups =>
      ∀ l ∈ lookups, P l.subtables := by
    intro w
    apply ensures_decode
    refine ensures_after fun count => ensures_after fun offsets => ?_
    exact ensures_mono (ensures_decodeEach w offsets (ensures_lookup_load h)) fun _ h => h.2
  apply ensures_decode
  refine ensures_after fun major => ensures_after fun minor => ensures_after fun scriptsOffset =>
    ensures_after fun featuresOffset => ensures_after fun lookupsOffset => ?_
  refine ensures_after fun _ => ensures_after fun scripts => ensures_after fun features => ?_
  refine ensures_bind (ensures_decodeNullable w lookupsOffset hlist) fun lookups hlookups => ?_
  apply ensures_pure
  intro l hl
  cases lookups with
  | none => exact absurd hl (Array.not_mem_empty l)
  | some lookups => exact hlookups lookups rfl l hl

end

/-- What is ensured with a cache holds of what is loaded with a cache that is empty at first. -/
theorem CachedLoad.of_result {α : Type} {P : α → Prop} {load : CachedLoad α}
    (hload : Ensures load P) {a : α} (h : CachedLoad.result load = .ok a) : P a := by
  unfold result at h
  cases hrun : load.run {} with
  | error e =>
    rw [hrun] at h
    cases h
  | ok answer =>
    rw [hrun] at h
    cases h
    exact ensures_run_iff.mp hload {} answer hrun

/-- What a load answers, it answers with some cache. -/
theorem CachedLoad.exists_run {α : Type} {load : CachedLoad α} {a : α} (h : load.result = .ok a) :
    ∃ cache, load.run {} = .ok (a, cache) := by
  unfold result at h
  rcases hrun : load.run {} with e | ⟨b, cache⟩
  · rw [hrun] at h
    cases h
  · rw [hrun] at h
    cases h
    exact ⟨cache, rfl⟩

/-- What holds of the subtables of every lookup type holds of all lookups of a table that has been
    read. -/
theorem LayoutTable.subtables_of_ofWindow {S : Type} [LookupFamily S] {P : S → Prop}
    (h : ∀ type subtables, Ensures (LookupFamily.load type subtables : CachedLoad S) P)
    {w : Window} {t : LayoutTable S} (hread : ofWindow w = .ok t) {i : Nat} {l : Lookup S}
    (hlookup : t.lookup i = .ok l) : P l.subtables := by
  have hall := CachedLoad.of_result (ensures_layoutTable_load h w) hread
  unfold lookup at hlookup
  split at hlookup
  case h_1 hget =>
    cases hlookup
    exact hall l (Array.mem_of_getElem? hget)
  case h_2 => cases hlookup

/-! ## §4 Glyph definitions -/

namespace Gdef

/-- With a table that has been read, properties are kept, and no classes have been built. -/
theorem ensures_ofWindow (w : Window) :
    Ensures (ofWindow w) fun g => g.keepsProperties = true ∧ g.synthesized = none := by
  apply ensures_decode
  refine ensures_after fun major => ensures_after fun _ => ensures_after fun minor =>
    ensures_after fun classesOffset => ensures_after fun attachOffset =>
    ensures_after fun caretsOffset => ensures_after fun markAttachmentOffset => ?_
  exact ensures_after fun classes => ensures_after fun attachPoints => ensures_after fun carets =>
    ensures_pure ⟨rfl, rfl⟩

/-- Decoding the mark attachment classes changes nothing else. -/
theorem ensures_loadMarkAttachment (g : Gdef) :
    Ensures g.loadMarkAttachment fun g' =>
      ∃ markAttachment, g' = { g with markAttachment := markAttachment } := by
  have hsame : ∃ markAttachment, g = { g with markAttachment := markAttachment } := ⟨_, rfl⟩
  unfold loadMarkAttachment
  split
  case h_1 => exact ensures_pure hsame
  case h_2 => exact ensures_pure hsame
  case h_3 =>
    refine ensures_after fun target => ?_
    split
    · exact ensures_pure hsame
    · exact ensures_after fun classes => ensures_after fun _ => ensures_pure ⟨_, rfl⟩

end Gdef

end OpenTypeLayout
