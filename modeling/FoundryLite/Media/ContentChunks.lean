import FoundryLite.Library.Numeral
import FoundryLite.Library.SlidingWindows
import FoundryLite.Serialiser

/-!
# Content chunks and their preview

A committed content unit is cut into windows of its words, and so is the unit that a pipeline preview
shows, each by a loop of its own. The words are those of `str.split`. The windows tile them, and the two
loops cut the same texts.

## Main results

* `chunkTextWindows_spec`: the windows of a text, and the chunks of its preview.
-/

namespace FoundryLite.Media.ContentChunking

open SlidingWindows

/-! ### The rules -/

def contentChunkTokenizerVersion : String := "whitespace_v1"

/-- `_MAX_CHUNK_SIZE`. -/
def maxChunkSize : ℕ := 100000

structure ContentChunkSpec where
  chunkSize : Json := .int 500
  overlap : Json := .int 50
  tokenizerVersion : String := contentChunkTokenizerVersion

structure ContentChunkWindow where
  localOrdinal : ℕ
  startToken : ℕ
  endToken : ℕ
  text : String
  textHash : String
  deriving DecidableEq

/-- `validate_content_chunk_spec`, which gives the two numbers that it has found to be such. -/
def validateContentChunkSpec (spec : ContentChunkSpec) : Checked (ℕ × ℕ) :=
  match spec.chunkSize with
  | .int size => do
    rejectIf (size < 1 ∨ (maxChunkSize : ℤ) < size) "content chunk size is outside the supported range"
      [("chunkSize", .int size), ("maximum", .int maxChunkSize)]
    match spec.overlap with
    | .int overlap => do
      rejectIf (overlap < 0 ∨ size ≤ overlap)
        "content chunk overlap must be non-negative and smaller than chunk size"
        [("chunkSize", .int size), ("overlap", .int overlap)]
      rejectIf (spec.tokenizerVersion ≠ contentChunkTokenizerVersion)
        "content chunk tokenizer version is not supported"
        [("tokenizerVersion", .str spec.tokenizerVersion),
          ("supportedTokenizerVersion", .str contentChunkTokenizerVersion)]
      pure (size.toNat, overlap.toNat)
    | _ => validationFailed "content chunk overlap must be an integer"
  | _ => validationFailed "content chunk size must be an integer"

/-- `" ".join(tokens[start:end])`. -/
def joinedTokens (tokens : List (List Char)) (start stop : ℕ) : String :=
  String.ofList ([' '].intercalate ((tokens.take stop).drop start))

section Environment

variable (env : Serialiser)

/-- A window of `chunk_text_windows`. -/
def windowOf (tokens : List (List Char)) (size : ℕ) (entry : ℕ × ℕ) : ContentChunkWindow :=
  let stop := min (entry.1 + size) tokens.length
  let text := joinedTokens tokens entry.1 stop
  ⟨entry.2, entry.1, stop, text, env.jsonHash [("text", .str text)]⟩

/-- `chunk_text_windows`. -/
def chunkTextWindows (text : String) (spec : ContentChunkSpec) : Checked (List ContentChunkWindow) := do
  let (size, overlap) ← validateContentChunkSpec spec
  let tokens := Text.splitFields text.toList
  if tokens = [] then pure []
  else
    let begun := takeThrough (fun start => min (start + size) tokens.length = tokens.length)
      (starts tokens.length (size - overlap))
    pure (begun.zipIdx.map (windowOf env tokens size))

/-! ### The preview -/

/-- `_chunk_payload`. -/
def chunkPayload (unit : Mapping) (ordinal : ℕ) (text : String) : Mapping :=
  ("unitKind", .str "chunk") :: ("ordinal", .int ordinal) :: ("text", .str text) ::
    ("textHash", .str (env.jsonHash [("text", .str text)])) :: unit

/-- `str(unit.get("text") or "")`. -/
def unitText (unit : Mapping) : String :=
  let text := (unit.lookup "text").getD .null
  if text.isTruthy then env.str text else ""

/-- `_chunk_unit`. -/
def chunkUnit (unit : Mapping) (size overlap : ℤ) : List Mapping :=
  let words := Text.splitFields (unitText env unit).toList
  if words = [] then []
  else
    let step := (max (size - overlap) 1).toNat
    let begun := takeThrough (fun start : ℕ => decide ((words.length : ℤ) ≤ (start : ℤ) + size))
      (starts words.length step)
    begun.zipIdx.map fun entry =>
      chunkPayload env unit entry.2 (joinedTokens words entry.1 ((entry.1 : ℤ) + size).toNat)

/-- `required_positive_int`. -/
def requiredPositiveInt (value : Json) (field nodeId : String) : Checked ℤ :=
  match value with
  | .int n => do
    rejectIf (n < 1) "pipeline preview positive integer is required"
      [("nodeId", .str nodeId), ("field", .str field)]
    pure n
  | _ => validationFailed "pipeline preview positive integer is required"
      [("nodeId", .str nodeId), ("field", .str field)]

/-- `bounded_int`. -/
def boundedInt (value : Json) (default minimum maximum : ℤ) : Checked ℤ :=
  match value with
  | .null => pure default
  | .int n => pure (max minimum (min n maximum))
  | value => validationFailed "pipeline preview limit must be an integer" [("value", value)]

/-- `limit_value`. -/
def limitValue (limits : Mapping) (key : String) : Checked ℤ :=
  match limits.lookup key with
  | some (.int n) => pure n
  | _ => validationFailed "normalized pipeline preview limit is missing" [("limit", .str key)]

/-- `single_input`. -/
def singleInput (inputs : List (List Mapping)) (nodeId : String) : Checked (List Mapping) :=
  match inputs with
  | [items] => pure items
  | groups => validationFailed "pipeline preview node requires exactly one connected input"
      [("nodeId", .str nodeId), ("inputCount", .int groups.length)]

/-- `xs[:limit]`: a limit below zero counts from the end. -/
def sliceUpTo {α : Type} (xs : List α) (limit : ℤ) : List α :=
  if 0 ≤ limit then xs.take limit.toNat else xs.take (xs.length - limit.natAbs)

/-- `chunk`. -/
def chunk (nodeId : String) (config : Mapping) (inputs : List (List Mapping)) (limits : Mapping) :
    Checked (List Mapping) := do
  let units ← singleInput inputs nodeId
  let size ← requiredPositiveInt ((config.lookup "chunkSize").getD .null) "chunkSize" nodeId
  let overlap ← boundedInt ((config.lookup "overlap").getD .null) 0 0 (max (size - 1) 0)
  let limit ← limitValue limits "tableRows"
  pure (sliceUpTo (units.flatMap fun unit => chunkUnit env unit size overlap) limit)

end Environment

/-! ### The two loops -/

section Loops

variable {env : Serialiser} {size overlap : ℕ} {spec : ContentChunkSpec}

theorem validateContentChunkSpec_eq_ok_iff :
    validateContentChunkSpec spec = .ok (size, overlap) ↔ spec.chunkSize = .int size ∧
      spec.overlap = .int overlap ∧ overlap < size ∧ size ≤ maxChunkSize ∧
        spec.tokenizerVersion = contentChunkTokenizerVersion := by
  constructor
  · intro h
    simp only [validateContentChunkSpec] at h
    split at h
    · rename_i n hn
      simp only [Except.bind_eq_ok_iff, rejectIf_eq_ok_iff] at h
      obtain ⟨-, hsize, h⟩ := h
      split at h
      · rename_i m hm
        simp only [Except.bind_eq_ok_iff, rejectIf_eq_ok_iff, Except.pure_eq_ok_iff, Prod.mk.injEq] at h
        obtain ⟨-, hoverlap, -, hversion, rfl, rfl⟩ := h
        rw [hn, hm, Json.int.injEq, Json.int.injEq]
        rw [not_not] at hversion
        refine ⟨by omega, by omega, by omega, ?_, hversion⟩
        simp only [maxChunkSize] at hsize ⊢
        omega
      · simp at h
    · simp at h
  · rintro ⟨hn, hm, hlt, hle, hversion⟩
    simp only [maxChunkSize] at hle
    have hsize : ¬ ((size : ℤ) < 1 ∨ (maxChunkSize : ℤ) < size) := by
      simp only [maxChunkSize]
      omega
    have hoverlap : ¬ ((overlap : ℤ) < 0 ∨ (size : ℤ) ≤ overlap) := by omega
    simp only [validateContentChunkSpec, hn, hm, Except.bind_eq_ok_iff, rejectIf_eq_ok_iff]
    exact ⟨(), hsize, (), hoverlap, (), not_not.mpr hversion, by simp⟩

variable {tokens : List (List Char)} {n step : ℕ}

/-- Both loops end with the window that gets to the end of the text. -/
theorem takeThrough_min (hpos : 0 < n) (hlt : overlap < size) :
    takeThrough (fun start => decide (min (start + size) n = n)) (starts n (size - overlap)) =
      (List.range (lastWindow n size (size - overlap) + 1)).map (· * (size - overlap)) := by
  rw [← takeThrough_starts hpos (by omega) (Nat.sub_le _ _)]
  refine takeThrough_congr fun start _ => ?_
  rw [decide_eq_decide]
  omega

theorem takeThrough_le (hpos : 0 < n) (hlt : overlap < size) :
    takeThrough (fun start : ℕ => decide ((n : ℤ) ≤ (start : ℤ) + (size : ℤ)))
        (starts n (max ((size : ℤ) - overlap) 1).toNat) =
      (List.range (lastWindow n size (size - overlap) + 1)).map (· * (size - overlap)) := by
  have hstep : (max ((size : ℤ) - overlap) 1).toNat = size - overlap := by omega
  rw [← takeThrough_starts hpos (by omega) (Nat.sub_le _ _), hstep]
  refine takeThrough_congr fun start _ => ?_
  rw [decide_eq_decide]
  omega

theorem zipIdx_map_range (f : ℕ → ℕ) (m : ℕ) :
    ((List.range m).map f).zipIdx = (List.range m).map fun k => (f k, k) := by
  refine List.ext_getElem (by simp) fun i hi _ => ?_
  simp

theorem joinedTokens_min {start stop : ℕ} :
    joinedTokens tokens start (min stop tokens.length) = joinedTokens tokens start stop := by
  rw [joinedTokens, joinedTokens, ← List.take_eq_take_min]

/-- The windows that the committed unit is cut into. -/
theorem chunkTextWindows_eq {text : String} (h : validateContentChunkSpec spec = .ok (size, overlap))
    (htokens : Text.splitFields text.toList = tokens) (hpos : 0 < tokens.length) :
    chunkTextWindows env text spec =
      .ok ((List.range (lastWindow tokens.length size (size - overlap) + 1)).map fun k =>
        windowOf env tokens size (k * (size - overlap), k)) := by
  obtain ⟨-, -, hlt, -, -⟩ := validateContentChunkSpec_eq_ok_iff.mp h
  have hne : tokens ≠ [] := List.ne_nil_of_length_pos hpos
  rw [chunkTextWindows, h]
  change (if Text.splitFields text.toList = [] then pure [] else _) = _
  rw [htokens, if_neg hne, takeThrough_min hpos hlt, zipIdx_map_range, List.map_map]
  rfl

/-- The chunks that the preview cuts the same words into. -/
theorem chunkUnit_eq {unit : Mapping} (htokens : Text.splitFields (unitText env unit).toList = tokens)
    (hpos : 0 < tokens.length) (hlt : overlap < size) :
    chunkUnit env unit size overlap =
      (List.range (lastWindow tokens.length size (size - overlap) + 1)).map fun k =>
        chunkPayload env unit k
          (joinedTokens tokens (k * (size - overlap)) (k * (size - overlap) + size)) := by
  have hne : tokens ≠ [] := List.ne_nil_of_length_pos hpos
  simp only [chunkUnit, htokens, if_neg hne]
  rw [takeThrough_le hpos hlt, zipIdx_map_range, List.map_map]
  refine List.map_congr_left fun k _ => ?_
  rw [Function.comp_apply]
  congr 2

end Loops

/-! ### The same texts -/

section Agreement

variable {env : Serialiser} {size overlap : ℕ} {spec : ContentChunkSpec} {text : String}

theorem sliceUpTo_map {α β : Type} (f : α → β) (xs : List α) (limit : ℤ) :
    (sliceUpTo xs limit).map f = sliceUpTo (xs.map f) limit := by
  rw [sliceUpTo, sliceUpTo, apply_ite (List.map f), List.map_take, List.map_take, List.length_map]

theorem unitText_str {unit : Mapping} (h : unit.lookup "text" = some (.str text)) :
    unitText env unit = text := by
  simp only [unitText, h, Option.getD_some, Json.isTruthy]
  by_cases hempty : text = ""
  · simp [hempty]
  · simp [hempty, Serialiser.str]

/-- What the two numbers in a preview node's configuration come to. -/
theorem chunk_eq {unit config limits : Mapping} {limit : ℤ} {nodeId : String} (hlt : overlap < size)
    (hsize : config.lookup "chunkSize" = some (.int size))
    (hoverlap : config.lookup "overlap" = some (.int overlap))
    (hlimit : limits.lookup "tableRows" = some (.int limit)) :
    chunk env nodeId config [[unit]] limits = .ok (sliceUpTo (chunkUnit env unit size overlap) limit) := by
  have hpos : ¬ (size : ℤ) < 1 := by omega
  have hkept : max (0 : ℤ) (min overlap (max ((size : ℤ) - 1) 0)) = overlap := by omega
  simp only [chunk, Except.bind_eq_ok_iff, singleInput, requiredPositiveInt, boundedInt, limitValue, hsize,
    hoverlap, hlimit, Option.getD_some, rejectIf_eq_ok_iff, Except.pure_eq_ok_iff]
  refine ⟨_, rfl, _, ⟨(), hpos, rfl⟩, _, rfl, _, rfl, ?_⟩
  rw [hkept, List.flatMap_singleton]

/-- **The windows of a text tile its words, and a preview that is set the same way shows their texts.** -/
theorem chunkTextWindows_spec (h : validateContentChunkSpec spec = .ok (size, overlap)) :
    ∃ windows, chunkTextWindows env text spec = .ok windows ∧
      Tiles (Text.splitFields text.toList).length size overlap
        (windows.map fun window => (window.startToken, window.endToken)) ∧
      (∀ window ∈ windows, window.text =
        joinedTokens (Text.splitFields text.toList) window.startToken window.endToken) ∧
      ∀ (unit config limits : Mapping) (limit : ℤ) (nodeId : String),
        unit.lookup "text" = some (.str text) → config.lookup "chunkSize" = some (.int size) →
        config.lookup "overlap" = some (.int overlap) → limits.lookup "tableRows" = some (.int limit) →
        (chunkUnit env unit size overlap).map (·.lookup "text") =
            windows.map (fun window => some (.str window.text)) ∧
          ∃ chunks, chunk env nodeId config [[unit]] limits = .ok chunks ∧
            chunks.map (·.lookup "text") =
              sliceUpTo (windows.map fun window => some (.str window.text)) limit := by
  obtain ⟨-, -, hlt, -, -⟩ := validateContentChunkSpec_eq_ok_iff.mp h
  generalize htokens : Text.splitFields text.toList = tokens
  have htile := windows_tile (n := tokens.length) (Nat.sub_pos_of_lt hlt) (Nat.sub_add_cancel hlt.le)
  obtain ⟨windows, hwindows, hpairs, htexts, hpreview⟩ : ∃ windows,
      chunkTextWindows env text spec = .ok windows ∧
      windows.map (fun window => (window.startToken, window.endToken)) =
        SlidingWindows.windows tokens.length size (size - overlap) ∧
      (∀ window ∈ windows, window.text = joinedTokens tokens window.startToken window.endToken) ∧
      ∀ unit : Mapping, unit.lookup "text" = some (.str text) →
        (chunkUnit env unit size overlap).map (·.lookup "text") =
          windows.map fun window => some (.str window.text) := by
    rcases Nat.eq_zero_or_pos tokens.length with hzero | hpos
    · rw [List.length_eq_zero_iff] at hzero
      refine ⟨[], ?_, by rw [hzero]; rfl, by simp, fun unit hunit => ?_⟩
      · rw [chunkTextWindows, h]
        change (if Text.splitFields text.toList = [] then pure [] else _) = _
        rw [htokens, if_pos hzero]
        rfl
      · rw [chunkUnit, unitText_str hunit, htokens, if_pos hzero]
        rfl
    · refine ⟨_, chunkTextWindows_eq h htokens hpos, ?_, ?_, fun unit hunit => ?_⟩
      · rw [SlidingWindows.windows, if_neg hpos.ne', List.map_map]
        rfl
      · simp only [List.mem_map]
        rintro window ⟨k, -, rfl⟩
        rfl
      · rw [chunkUnit_eq ((unitText_str hunit).symm ▸ htokens) hpos hlt, List.map_map, List.map_map]
        refine List.map_congr_left fun k _ => ?_
        simp only [Function.comp_apply, windowOf, joinedTokens_min]
        rfl
  rw [← hpairs] at htile
  refine ⟨windows, hwindows, htile, htexts, ?_⟩
  intro unit config limits limit nodeId hunit hsize hoverlap hlimit
  refine ⟨hpreview unit hunit, _, chunk_eq hlt hsize hoverlap hlimit, ?_⟩
  rw [sliceUpTo_map, hpreview unit hunit]

def emptyDigests : Serialiser := ⟨fun _ => "", fun _ => ""⟩

theorem chunkTextWindows_spec_three : ∃ windows,
    chunkTextWindows emptyDigests "a b c d e" { chunkSize := .int 3, overlap := .int 1 } =
      .ok windows ∧
    Tiles 5 3 1 (windows.map fun window => (window.startToken, window.endToken)) ∧
    ∃ chunks, chunk emptyDigests "chunks" [("chunkSize", .int 3), ("overlap", .int 1)]
      [[[("text", .str "a b c d e")]]] [("tableRows", .int 100)] = .ok chunks ∧
        chunks.map (·.lookup "text") =
          sliceUpTo (windows.map fun window => some (.str window.text)) 100 := by
  obtain ⟨windows, hwindows, htile, -, hpreview⟩ := @chunkTextWindows_spec emptyDigests 3 1
    { chunkSize := .int 3, overlap := .int 1 } "a b c d e" (by decide)
  exact ⟨windows, hwindows, htile, (hpreview _ _ _ _ _ rfl rfl rfl rfl).2⟩

end Agreement

end FoundryLite.Media.ContentChunking
