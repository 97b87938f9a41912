import LearningTasks.Library.Sorting
import LearningTasks.Services.DocumentIndex

namespace LearningTasks.Services.EmbeddingResponses

open Library.Strings Library.Records Library.Sorting Schemas.Scalars DocumentIndex
open Std (TransCmp)

inductive RawIndex
  | bool (b : Bool)
  | int (n : ℤ)
  | other

/-- An item of a response; the embedding is none where it is no sequence. -/
structure ResponseItem where
  index : RawIndex
  embedding : Option (List RawNumber)

inductive EmbeddingProviderError
  | configuration
  | unavailable
  | invalidResponse
  deriving DecidableEq

def readItem : ResponseItem → Option (ℤ × List RawNumber)
  | ⟨.int index, some vector⟩ => some (index, vector)
  | _ => none

def byIndex : ℤ × List RawNumber → ℤ × List RawNumber → Ordering := compareOn Prod.fst

def inputIndices (n : ℕ) : List ℤ := (List.range n).map Int.ofNat

/-- `_normalize_response`; the data is none where it is missing or no list. -/
def normalizeResponse (host : IndexHost) (data : Option (List ResponseItem)) (expectedCount : ℕ) :
    Except EmbeddingProviderError (List EmbeddingVector) :=
  match data with
  | none => .error .invalidResponse
  | some items =>
    if items.length ≠ expectedCount then .error .invalidResponse
    else match items.mapM readItem with
      | none => .error .invalidResponse
      | some indexedVectors =>
        let sorted := sortBy byIndex indexedVectors
        if sorted.map Prod.fst ≠ inputIndices expectedCount then .error .invalidResponse
        else match validateEmbeddingBatch host (sorted.map Prod.snd) expectedCount with
          | .ok vectors => .ok vectors
          | .error _ => .error .invalidResponse

def maxEmbeddingInputs : ℕ := 200

def maxEmbeddingInputCharacters : ℕ := 2000

/-- The provider's SDK: whether a key and a model are set, and what a call brings back, where
it does not fail. -/
structure EmbeddingClient where
  configured : Bool
  create : List Text → Option (Option (List ResponseItem))

inductive EmbedError
  | value (message : String)
  | provider (error : EmbeddingProviderError)
  deriving DecidableEq

/-- `OpenAIEmbeddingProvider.embed`; the flag says that the timeout is finite and positive. -/
def embed (host : IndexHost) (client : EmbeddingClient) (texts : List Text) (timeout : Bool) :
    Except EmbedError (List EmbeddingVector) :=
  if !timeout then .error (.value "embedding timeout must be positive")
  else if texts.length < 1 ∨ maxEmbeddingInputs < texts.length then
    .error (.value "embedding batch must contain between 1 and 200 inputs")
  else if texts.any fun text ↦ text.isEmpty || maxEmbeddingInputCharacters < text.length then
    .error (.value "embedding input must contain between 1 and 2000 characters")
  else if !client.configured then .error (.provider .configuration)
  else match client.create texts with
    | none => .error (.provider .unavailable)
    | some data => match normalizeResponse host data texts.length with
      | .ok vectors => .ok vectors
      | .error e => .error (.provider e)

section

variable {host : IndexHost} {n : ℕ} {items : List ResponseItem}

def IsNumber (host : IndexHost) (value : RawNumber) : Prop :=
  match value with
  | .int n => (host.toFloat n).isSome
  | .float _ => True
  | .bool _ | .nonFinite | .other => False

/-- The items answer the inputs, each once, with a vector of numbers. -/
structure Aligned (host : IndexHost) (n : ℕ) (items : List ResponseItem) : Prop where
  indices : (items.map ResponseItem.index).Perm ((inputIndices n).map RawIndex.int)
  vectors : ∀ item ∈ items, ∃ vector, item.embedding = some vector ∧
    vector.length = embeddingDimensions ∧ ∀ value ∈ vector, IsNumber host value

theorem Aligned.perm {items' : List ResponseItem} (h : Aligned host n items)
    (hp : items.Perm items') : Aligned host n items' where
  indices := (hp.map ResponseItem.index).symm.trans h.indices
  vectors item hitem := h.vectors item (hp.mem_iff.mpr hitem)

theorem readNumber_isSome {value : RawNumber} :
    (readNumber host value).isSome = true ↔ IsNumber host value := by
  cases value with
  | int n => exact Iff.rfl
  | float x => exact iff_of_true rfl trivial
  | bool b => exact iff_of_false Bool.false_ne_true id
  | nonFinite => exact iff_of_false Bool.false_ne_true id
  | other => exact iff_of_false Bool.false_ne_true id

theorem validateVector_values {vector : List RawNumber} {result : EmbeddingVector}
    (h : validateVector host vector = some result) :
    vector.length = embeddingDimensions ∧ vector.mapM (readNumber host) = some result.values := by
  unfold validateVector at h
  split at h
  · next hlength =>
    split at h
    · next values hv =>
      cases h
      exact ⟨hlength, hv⟩
    · cases h
  · cases h

theorem validateVector_isSome {vector : List RawNumber} :
    (validateVector host vector).isSome = true ↔
      vector.length = embeddingDimensions ∧ ∀ value ∈ vector, IsNumber host value := by
  constructor
  · intro h
    obtain ⟨result, hresult⟩ := Option.isSome_iff_exists.mp h
    obtain ⟨hlength, hvalues⟩ := validateVector_values hresult
    refine ⟨hlength, fun value hvalue ↦ ?_⟩
    have hsome := mapM_isSome_iff.mp (Option.isSome_of_eq_some hvalues) value hvalue
    exact readNumber_isSome.mp hsome
  · rintro ⟨hlength, hnumbers⟩
    have hsome : (vector.mapM (readNumber host)).isSome :=
      mapM_isSome_iff.mpr fun value hvalue ↦ readNumber_isSome.mpr (hnumbers value hvalue)
    obtain ⟨values, hvalues⟩ := Option.isSome_iff_exists.mp hsome
    rw [validateVector, dif_pos hlength]
    split
    · rfl
    · next hnone =>
      rw [hvalues] at hnone
      cases hnone

def toItem (p : ℤ × List RawNumber) : ResponseItem := ⟨.int p.1, some p.2⟩

theorem readItem_some {item : ResponseItem} {p : ℤ × List RawNumber} :
    readItem item = some p ↔ item = toItem p := by
  obtain ⟨index, embedding⟩ := item
  constructor
  · intro h
    cases index with
    | int n =>
      cases embedding with
      | none => cases h
      | some vector =>
        cases h
        rfl
    | bool b => cases h
    | other => cases h
  · intro h
    cases h
    rfl

theorem mapM_readItem {indexedVectors : List (ℤ × List RawNumber)} :
    items.mapM readItem = some indexedVectors ↔ items = indexedVectors.map toItem := by
  constructor
  · intro h
    have hall := mapM_forall₂ h
    clear h
    induction hall with
    | nil => rfl
    | cons hitem _ ih => rw [List.map_cons, ← ih, readItem_some.mp hitem]
  · rintro rfl
    induction indexedVectors with
    | nil => rfl
    | cons p l ih =>
      rw [List.map_cons, List.mapM_cons, ih, readItem_some.mpr rfl]
      rfl

theorem normalizeResponse_ok {vectors : List EmbeddingVector} :
    normalizeResponse host (some items) n = .ok vectors ↔ ∃ indexedVectors,
      items = indexedVectors.map toItem ∧
      (sortBy byIndex indexedVectors).map Prod.fst = inputIndices n ∧
      ((sortBy byIndex indexedVectors).map Prod.snd).mapM (validateVector host) = some vectors := by
  constructor
  · intro h
    rw [normalizeResponse] at h
    split_ifs at h with hlength
    split at h
    · cases h
    · next indexedVectors hread =>
      dsimp only at h
      split_ifs at h with hindices
      refine ⟨indexedVectors, mapM_readItem.mp hread, not_not.mp hindices, ?_⟩
      unfold validateEmbeddingBatch at h
      split_ifs at h with hcount
      split at h
      · next vectors' hvectors =>
        split at hvectors
        · next normalized hnormalized =>
          cases hvectors
          cases h
          exact hnormalized
        · cases hvectors
      · cases h
  · rintro ⟨indexedVectors, hitems, hindices, hvectors⟩
    have hsorted : (sortBy byIndex indexedVectors).length = n := by
      have hlength := congrArg List.length hindices
      rwa [List.length_map, inputIndices, List.length_map, List.length_range] at hlength
    have hlength : items.length = n := by
      rw [hitems, List.length_map, ← (sortBy_perm byIndex indexedVectors).length_eq, hsorted]
    have hcount : ((sortBy byIndex indexedVectors).map Prod.snd).length = n := by
      rw [List.length_map, hsorted]
    rw [normalizeResponse, if_neg (not_not.mpr hlength), mapM_readItem.mpr hitems]
    dsimp only
    rw [if_neg (not_not.mpr hindices), validateEmbeddingBatch, if_neg (not_not.mpr hcount),
      hvectors]

theorem normalizeResponse_error {data : Option (List ResponseItem)} {e : EmbeddingProviderError}
    (h : normalizeResponse host data n = .error e) : e = .invalidResponse := by
  unfold normalizeResponse at h
  cases data with
  | none =>
    cases h
    rfl
  | some items =>
    dsimp only at h
    split_ifs at h with hlength
    · cases h
      rfl
    · split at h
      · cases h
        rfl
      · split_ifs at h with hindices
        · cases h
          rfl
        · split at h
          · cases h
          · cases h
            rfl

theorem inputIndices_ascending (n : ℕ) : Ascending compare (inputIndices n) := by
  refine List.pairwise_map.mpr (List.pairwise_lt_range.imp fun {i j} hij ↦ ?_)
  exact Int.compare_eq_lt.mpr (Int.ofNat_lt.mpr hij)

theorem byIndex_separated {indexedVectors : List (ℤ × List RawNumber)}
    (h : (indexedVectors.map Prod.fst).Perm (inputIndices n)) :
    Separated byIndex indexedVectors := by
  have hnodup : (indexedVectors.map Prod.fst).Nodup :=
    h.nodup_iff.mpr (inputIndices_ascending n).nodup
  exact (List.pairwise_map.mp hnodup).imp fun hne heq ↦ hne (Int.compare_eq_eq.mp heq)

instance byIndex_transCmp : TransCmp byIndex := inferInstanceAs (TransCmp (compareOn Prod.fst))

theorem sorted_indices {indexedVectors : List (ℤ × List RawNumber)}
    (h : (indexedVectors.map Prod.fst).Perm (inputIndices n)) :
    (sortBy byIndex indexedVectors).map Prod.fst = inputIndices n := by
  have hsorted := sortBy_ascending (byIndex_separated h)
  have hascending : Ascending compare ((sortBy byIndex indexedVectors).map Prod.fst) :=
    List.pairwise_map.mpr hsorted
  refine hascending.eq_of_perm (inputIndices_ascending n) ?_
  exact ((sortBy_perm byIndex indexedVectors).map Prod.fst).trans h

theorem indices_toItem (indexedVectors : List (ℤ × List RawNumber)) :
    (indexedVectors.map toItem).map ResponseItem.index =
      (indexedVectors.map Prod.fst).map RawIndex.int := by
  rw [List.map_map, List.map_map]
  rfl

/-- The response is taken if and only if it is aligned with the inputs. -/
theorem normalizeResponse_iff_aligned :
    (∃ vectors, normalizeResponse host (some items) n = .ok vectors) ↔ Aligned host n items := by
  have hinj : Function.Injective RawIndex.int := fun i j hij ↦ RawIndex.int.inj hij
  constructor
  · rintro ⟨vectors, h⟩
    obtain ⟨indexedVectors, rfl, hindices, hvectors⟩ := normalizeResponse_ok.mp h
    have hperm := sortBy_perm byIndex indexedVectors
    constructor
    · rw [indices_toItem, ← hindices]
      exact ((hperm.map Prod.fst).map RawIndex.int).symm
    · intro item hitem
      obtain ⟨p, hp, rfl⟩ := List.mem_map.mp hitem
      have hmem := @List.mem_map_of_mem _ _ _ _ Prod.snd (hperm.mem_iff.mpr hp)
      have hsome := mapM_isSome_iff.mp (Option.isSome_of_eq_some hvectors) p.2 hmem
      exact ⟨p.2, rfl, validateVector_isSome.mp hsome⟩
  · rintro ⟨hindices, hvectors⟩
    have hread : (items.mapM readItem).isSome := by
      refine mapM_isSome_iff.mpr fun item hitem ↦ ?_
      obtain ⟨vector, hvector, -⟩ := hvectors item hitem
      have hindex := hindices.mem_iff.mp (List.mem_map_of_mem hitem)
      obtain ⟨i, -, hi⟩ := List.mem_map.mp hindex
      have hitem' : item = toItem (i, vector) := by
        obtain ⟨index, embedding⟩ := item
        cases hi
        cases hvector
        rfl
      rw [readItem_some.mpr hitem']
      rfl
    obtain ⟨indexedVectors, hread⟩ := Option.isSome_iff_exists.mp hread
    obtain rfl := mapM_readItem.mp hread
    rw [indices_toItem] at hindices
    have hfirst := (List.map_perm_map_iff hinj).mp hindices
    have hvalid : (((sortBy byIndex indexedVectors).map Prod.snd).mapM
        (validateVector host)).isSome := by
      refine mapM_isSome_iff.mpr fun vector hvector ↦ ?_
      obtain ⟨p, hp, rfl⟩ := List.mem_map.mp hvector
      obtain ⟨vector, hvector, hnumbers⟩ :=
        hvectors _ (List.mem_map_of_mem (f := toItem) (mem_sortBy.mp hp))
      cases hvector
      exact validateVector_isSome.mpr hnumbers
    obtain ⟨vectors, hvectors⟩ := Option.isSome_iff_exists.mp hvalid
    exact ⟨vectors, normalizeResponse_ok.mpr
      ⟨indexedVectors, rfl, sorted_indices hfirst, hvectors⟩⟩

theorem normalizeResponse_perm {items' : List ResponseItem} (hp : items.Perm items') :
    normalizeResponse host (some items) n = normalizeResponse host (some items') n := by
  have hok {l l' : List ResponseItem} (hl : l.Perm l') {vectors : List EmbeddingVector}
      (h : normalizeResponse host (some l) n = .ok vectors) :
      normalizeResponse host (some l') n = .ok vectors := by
    obtain ⟨vectors', h'⟩ := normalizeResponse_iff_aligned.mpr
      ((normalizeResponse_iff_aligned.mp ⟨vectors, h⟩).perm hl)
    obtain ⟨p, rfl, hindices, hvectors⟩ := normalizeResponse_ok.mp h
    obtain ⟨p', rfl, hindices', hvectors'⟩ := normalizeResponse_ok.mp h'
    have hpp : p.Perm p' := by
      have hread := hl.filterMap readItem
      have hself (q : List (ℤ × List RawNumber)) : (q.map toItem).filterMap readItem = q := by
        rw [List.filterMap_map]
        exact List.filterMap_some
      rwa [hself, hself] at hread
    have hfirst : (p.map Prod.fst).Perm (inputIndices n) := by
      rw [← hindices]
      exact ((sortBy_perm byIndex p).map Prod.fst).symm
    have hfirst' : (p'.map Prod.fst).Perm (inputIndices n) := (hpp.map Prod.fst).symm.trans hfirst
    have hsame : sortBy byIndex p = sortBy byIndex p' :=
      (sortBy_ascending (byIndex_separated hfirst)).eq_of_perm
        (sortBy_ascending (byIndex_separated hfirst'))
        ((sortBy_perm byIndex p).trans (hpp.trans (sortBy_perm byIndex p').symm))
    rw [hsame, hvectors'] at hvectors
    rw [h', Option.some.inj hvectors]
  cases h : normalizeResponse host (some items) n with
  | ok vectors => exact (hok hp h).symm
  | error e =>
    cases h' : normalizeResponse host (some items') n with
    | ok vectors =>
      rw [hok hp.symm h'] at h
      cases h
    | error e' => rw [normalizeResponse_error h, normalizeResponse_error h']

theorem normalizeResponse_aligned {vectors : List EmbeddingVector}
    (h : normalizeResponse host (some items) n = .ok vectors) :
    vectors.length = n ∧ ∀ i < n, ∃ vector result, ⟨.int i, some vector⟩ ∈ items ∧
      vector.mapM (readNumber host) = some result.values ∧ vectors[i]? = some result := by
  obtain ⟨p, rfl, hindices, hvectors⟩ := normalizeResponse_ok.mp h
  have hall := mapM_forall₂ hvectors
  have hlength : (sortBy byIndex p).length = n := by
    have hlength := congrArg List.length hindices
    rwa [List.length_map, inputIndices, List.length_map, List.length_range] at hlength
  have hcount : vectors.length = n := by
    rw [← hall.length_eq, List.length_map, hlength]
  refine ⟨hcount, fun i hi ↦ ?_⟩
  have hsorted : i < (sortBy byIndex p).length := by rwa [hlength]
  have hresult : i < vectors.length := by rwa [hcount]
  have hindex : ((sortBy byIndex p)[i]).1 = i := by
    have hget := congrArg (fun l ↦ l[i]?) hindices
    simpa [inputIndices, hsorted, hi] using hget
  have hvalid : validateVector host ((sortBy byIndex p)[i]).2 = some vectors[i] := by
    have hget := hall.get (i := i) (by rwa [List.length_map]) hresult
    simpa using hget
  refine ⟨((sortBy byIndex p)[i]).2, vectors[i], ?_, (validateVector_values hvalid).2,
    List.getElem?_eq_getElem hresult⟩
  have hmem := List.mem_map_of_mem (f := toItem) (mem_sortBy.mp (List.getElem_mem hsorted))
  rwa [toItem, hindex] at hmem

theorem embed_ok {client : EmbeddingClient} {texts : List Text} {timeout : Bool}
    {vectors : List EmbeddingVector} (h : embed host client texts timeout = .ok vectors) :
    ∃ data, client.create texts = some data ∧
      normalizeResponse host data texts.length = .ok vectors := by
  unfold embed at h
  split_ifs at h
  split at h
  · cases h
  · next data hcreate =>
    split at h
    · next vectors' hvectors =>
      cases h
      exact ⟨data, hcreate, hvectors⟩
    · cases h

theorem embedding_alignment (host : IndexHost) (n : ℕ) (data : Option (List ResponseItem)) :
    ((∃ vectors, normalizeResponse host data n = .ok vectors) ↔
        ∃ items, data = some items ∧ Aligned host n items) ∧
      (∀ items vectors, data = some items → normalizeResponse host data n = .ok vectors →
        vectors.length = n ∧ ∀ i < n, ∃ vector result, ⟨.int i, some vector⟩ ∈ items ∧
          vector.mapM (readNumber host) = some result.values ∧ vectors[i]? = some result) ∧
      (∀ e, normalizeResponse host data n = .error e → e = .invalidResponse) ∧
      (∀ items items', data = some items → items.Perm items' →
        normalizeResponse host (some items') n = normalizeResponse host data n) ∧
      ∀ client texts timeout vectors, embed host client texts timeout = .ok vectors →
        ∃ data, client.create texts = some data ∧
          normalizeResponse host data texts.length = .ok vectors := by
  refine ⟨?_, ?_, fun e ↦ normalizeResponse_error, ?_, fun _ _ _ _ ↦ embed_ok⟩
  · constructor
    · rintro ⟨vectors, h⟩
      cases data with
      | none => cases h
      | some items => exact ⟨items, rfl, normalizeResponse_iff_aligned.mp ⟨vectors, h⟩⟩
    · rintro ⟨items, rfl, h⟩
      exact normalizeResponse_iff_aligned.mpr h
  · rintro items vectors rfl h
    exact normalizeResponse_aligned h
  · rintro items items' rfl hp
    exact (normalizeResponse_perm hp).symm

end

end LearningTasks.Services.EmbeddingResponses
