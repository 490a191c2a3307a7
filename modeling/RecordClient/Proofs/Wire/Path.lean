import Mathlib.Data.List.Induction
import RecordClient.Wire.Path
/-!
# Reading paths back

`read?` takes the text of a path apart at its slashes and decodes the pieces.
`read?_ofSegments_iff` shows that a path gives back the segments it was put together from exactly
when each of them is `Faithful`.
-/
namespace RecordClient.Path

/-! ### Percent-decoding -/

/-- The bytes that an encoded segment stands for; none where a percent sign comes without two
digits. -/
def decodeBytes? : List Char → Option (List UInt8)
  | [] => some []
  | '%' :: high :: low :: rest => do
    let h ← Hex.digitValue? high
    let l ← Hex.digitValue? low
    (decodeBytes? rest).map (UInt8.ofNat (16 * h + l) :: ·)
  | '%' :: _ => none
  | c :: rest => (decodeBytes? rest).map (String.utf8EncodeChar c ++ ·)

def decode? (segment : List Char) : Option String :=
  (decodeBytes? segment).bind fun bytes => String.fromUTF8? bytes.toByteArray

def read? (path : String) : Option (List String) :=
  match path.toList with
  | '/' :: rest => (rest.splitOn '/').mapM decode?
  | _ => none

theorem digitValue?_upperDigit : ∀ n < 16, Hex.digitValue? (Hex.upperDigit n) = some n := by
  decide

theorem decodeBytes?_encodeByte (b : UInt8) (rest : List Char) :
    decodeBytes? (encodeByte b ++ rest) = (decodeBytes? rest).map (b :: ·) := by
  have hb : b.toNat < 256 := b.toNat_lt
  have high := digitValue?_upperDigit (b.toNat / 16) (by omega)
  have low := digitValue?_upperDigit (b.toNat % 16) (by omega)
  have byte : UInt8.ofNat (16 * (b.toNat / 16) + b.toNat % 16) = b := by
    rw [Nat.div_add_mod, UInt8.ofNat_toNat]
  simp only [encodeByte, Hex.upperByte, List.cons_append, List.nil_append, decodeBytes?, high, low,
    Option.bind_eq_bind, Option.bind_some, byte]

theorem decodeBytes?_encodeBytes (bytes : List UInt8) (rest : List Char) :
    decodeBytes? (bytes.flatMap encodeByte ++ rest) = (decodeBytes? rest).map (bytes ++ ·) := by
  induction bytes with
  | nil => simp
  | cons b bytes ih =>
    rw [List.flatMap_cons, List.append_assoc, decodeBytes?_encodeByte, ih, Option.map_map]
    rfl

theorem ne_percent_of_isRaw {c : Char} (raw : isRaw c = true) : c ≠ '%' := by
  rintro rfl
  revert raw
  decide

theorem decodeBytes?_cons {c : Char} (different : c ≠ '%') (rest : List Char) :
    decodeBytes? (c :: rest) = (decodeBytes? rest).map (String.utf8EncodeChar c ++ ·) := by
  rw [decodeBytes?.eq_def]
  split <;> simp_all

theorem decodeBytes?_encodeChar {c : Char} (stays : isDropped c = false) (rest : List Char) :
    decodeBytes? (encodeChar c ++ rest) =
      (decodeBytes? rest).map (String.utf8EncodeChar c ++ ·) := by
  unfold encodeChar
  cases raw : isRaw c with
  | true => exact decodeBytes?_cons (ne_percent_of_isRaw raw) rest
  | false =>
    simp only [stays, Bool.false_eq_true, ↓reduceIte]
    exact decodeBytes?_encodeBytes _ rest

theorem not_isRaw_of_isDropped {c : Char} (dropped : isDropped c = true) : isRaw c = false := by
  simp only [isDropped, Bool.or_eq_true, decide_eq_true_eq] at dropped
  rcases dropped with (rfl | rfl) | rfl <;> decide

theorem encodeChar_of_isDropped {c : Char} (dropped : isDropped c = true) : encodeChar c = [] := by
  simp [encodeChar, not_isRaw_of_isDropped dropped, dropped]

/-- The characters of a segment that its encoding keeps. -/
def kept (segment : String) : String :=
  String.ofList (segment.toList.filter fun c => !isDropped c)

theorem decodeBytes?_flatMap (cs : List Char) :
    decodeBytes? (cs.flatMap encodeChar) =
      some ((cs.filter fun c => !isDropped c).flatMap String.utf8EncodeChar) := by
  induction cs with
  | nil => rfl
  | cons c cs ih =>
    rw [List.flatMap_cons]
    cases dropped : isDropped c with
    | true => simp [encodeChar_of_isDropped dropped, dropped, ih]
    | false => simp [decodeBytes?_encodeChar dropped, dropped, ih]

theorem fromUTF8?_toByteArray (t : String) : String.fromUTF8? t.toByteArray = some t := by
  simp only [String.fromUTF8?, t.isValidUTF8, ↓reduceDIte, Option.some.injEq]
  exact String.toByteArray_inj.mp rfl

theorem decode?_encode (segment : String) :
    decode? (encode segment).toList = some (kept segment) := by
  rw [decode?, encode, String.toList_ofList, decodeBytes?_flatMap, Option.bind_some,
    ← fromUTF8?_toByteArray (kept segment), kept, String.toByteArray_ofList]
  rfl

/-! ### Slashes -/

theorem upperDigit_ne_slash : ∀ n < 16, Hex.upperDigit n ≠ '/' := by
  decide

theorem slash_not_mem_encodeByte (b : UInt8) : '/' ∉ encodeByte b := by
  have hb : b.toNat < 256 := b.toNat_lt
  have high := upperDigit_ne_slash (b.toNat / 16) (by omega)
  have low := upperDigit_ne_slash (b.toNat % 16) (by omega)
  simp [encodeByte, Hex.upperByte, high.symm, low.symm]

theorem slash_not_mem_encodeChar (c : Char) : '/' ∉ encodeChar c := by
  unfold encodeChar
  split
  · next raw =>
    rw [List.mem_singleton]
    rintro rfl
    revert raw
    decide
  · split
    · exact List.not_mem_nil
    · intro member
      obtain ⟨b, -, inside⟩ := List.mem_flatMap.mp member
      exact slash_not_mem_encodeByte b inside

theorem slash_not_mem_encode (segment : String) : '/' ∉ (encode segment).toList := by
  rw [encode, String.toList_ofList]
  intro member
  obtain ⟨c, -, inside⟩ := List.mem_flatMap.mp member
  exact slash_not_mem_encodeChar c inside

/-- Pieces that a slash would not take apart. -/
def Unbroken (path : List String) : Prop := ∀ piece ∈ path, '/' ∉ piece.toList

theorem unbroken_root : Unbroken root := by
  intro piece member
  rw [List.mem_singleton.mp member]
  decide

/-! ### Adding a segment -/

/-- The pieces in front of the next one; the empty piece of an address without a path gives way. -/
def ahead (path : List String) : List String := if path = root then [] else path

@[simp] theorem ahead_root : ahead root = [] := rfl

theorem ahead_of_ne {path : List String} (h : path ≠ root) : ahead path = path := if_neg h

theorem ahead_le (path : List String) : ahead path <+: path := by
  unfold ahead
  split
  · exact List.nil_prefix
  · exact List.prefix_refl path

/-- What adding a segment does: a dot segment does nothing, a segment that becomes one leaves an
empty piece, and any other its encoding. -/
theorem push_cases (path : List String) (segment : String) :
    ((segment = "." ∨ segment = "..") ∧ push path segment = path) ∨
    (¬(segment = "." ∨ segment = "..") ∧ (encode segment = "." ∨ encode segment = "..") ∧
      ∃ before, before <+: ahead path ∧ push path segment = before ++ [""]) ∨
    (¬(segment = "." ∨ segment = "..") ∧ push path segment = ahead path ++ [encode segment]) := by
  by_cases dots : segment = "." ∨ segment = ".."
  · exact Or.inl ⟨dots, by simp [push, dots]⟩
  refine Or.inr ?_
  unfold push
  rw [if_neg dots]
  dsimp only
  by_cases one : encode segment = "."
  · rw [if_pos one]
    exact Or.inl ⟨dots, Or.inl one, ahead path, List.prefix_refl _, rfl⟩
  rw [if_neg one]
  by_cases two : encode segment = ".."
  · rw [if_pos two]
    refine Or.inl ⟨dots, Or.inr two, ?_⟩
    split
    · exact ⟨ahead path, List.prefix_refl _, rfl⟩
    · refine ⟨path.dropLast, ?_, rfl⟩
      by_cases start : path = root
      · subst start
        exact List.nil_prefix
      · rw [ahead_of_ne start]
        exact List.dropLast_prefix path
  rw [if_neg two]
  exact Or.inr ⟨dots, rfl⟩

theorem push_eq_concat (path : List String) {segment : String}
    (text : ¬(segment = "." ∨ segment = "..")) :
    ∃ before piece, before <+: ahead path ∧ push path segment = before ++ [piece] ∧
      (piece = "" ∨ piece = encode segment) := by
  rcases push_cases path segment with ⟨dots, -⟩ | ⟨-, -, before, starts, pushed⟩ | ⟨-, pushed⟩
  · exact absurd dots text
  · exact ⟨before, "", starts, pushed, Or.inl rfl⟩
  · exact ⟨ahead path, encode segment, List.prefix_refl _, pushed, Or.inr rfl⟩

theorem unbroken_push {path : List String} (h : Unbroken path) (segment : String) :
    Unbroken (push path segment) := by
  by_cases dots : segment = "." ∨ segment = ".."
  · rw [push, if_pos dots]
    exact h
  · obtain ⟨before, piece, starts, pushed, last⟩ := push_eq_concat path dots
    rw [pushed]
    intro other member
    rcases List.mem_append.mp member with member | member
    · exact h other ((starts.trans (ahead_le path)).subset member)
    · rw [List.mem_singleton.mp member]
      rcases last with rfl | rfl
      · exact List.not_mem_nil
      · exact slash_not_mem_encode segment

theorem push_ne_nil {path : List String} (h : path ≠ []) (segment : String) :
    push path segment ≠ [] := by
  by_cases dots : segment = "." ∨ segment = ".."
  · rw [push, if_pos dots]
    exact h
  · obtain ⟨before, piece, -, pushed, -⟩ := push_eq_concat path dots
    rw [pushed]
    simp

theorem length_push_le (path : List String) {segment : String}
    (text : ¬(segment = "." ∨ segment = "..")) :
    (push path segment).length ≤ (ahead path).length + 1 := by
  obtain ⟨before, piece, starts, pushed, -⟩ := push_eq_concat path text
  rw [pushed, List.length_append, List.length_singleton]
  exact Nat.succ_le_succ starts.length_le

theorem ofSegments_concat (segments : List String) (segment : String) :
    ofSegments (segments ++ [segment]) = push (ofSegments segments) segment := by
  simp [ofSegments, List.foldl_append]

theorem unbroken_ofSegments (segments : List String) : Unbroken (ofSegments segments) := by
  induction segments using List.reverseRecOn with
  | nil => exact unbroken_root
  | append_singleton segments segment ih =>
    rw [ofSegments_concat]
    exact unbroken_push ih segment

theorem ofSegments_ne_nil (segments : List String) : ofSegments segments ≠ [] := by
  induction segments using List.reverseRecOn with
  | nil => decide
  | append_singleton segments segment ih =>
    rw [ofSegments_concat]
    exact push_ne_nil ih segment

theorem length_ahead_ofSegments_le (segments : List String) :
    (ahead (ofSegments segments)).length ≤ segments.length := by
  induction segments using List.reverseRecOn with
  | nil => decide
  | append_singleton segments segment ih =>
    rw [ofSegments_concat, List.length_append, List.length_singleton]
    by_cases dots : segment = "." ∨ segment = ".."
    · rw [push, if_pos dots]
      omega
    · have shorter := (ahead_le (push (ofSegments segments) segment)).length_le
      have step := length_push_le (ofSegments segments) dots
      omega

theorem length_ofSegments_le {segments : List String} (some_segment : segments ≠ []) :
    (ofSegments segments).length ≤ segments.length := by
  by_cases start : ofSegments segments = root
  · rw [start]
    exact List.length_pos_iff.mpr some_segment
  · have short := length_ahead_ofSegments_le segments
    rwa [ahead_of_ne start] at short

/-! ### Reading a path -/

def decodeAll? (path : List String) : Option (List String) :=
  path.mapM fun piece => decode? piece.toList

theorem toList_text (path : List String) :
    (text path).toList = '/' :: ['/'].intercalate (path.map String.toList) := by
  simp [text, String.toList_intercalate]

theorem splitOn_pieces {path : List String} (whole : Unbroken path) (some_piece : path ≠ []) :
    (['/'].intercalate (path.map String.toList)).splitOn '/' = path.map String.toList := by
  apply List.splitOn_intercalate
  · intro piece member
    obtain ⟨t, inside, rfl⟩ := List.mem_map.mp member
    exact whole t inside
  · simpa using some_piece

theorem read?_text {path : List String} (whole : Unbroken path) (some_piece : path ≠ []) :
    read? (text path) = decodeAll? path := by
  unfold read?
  rw [toList_text]
  simp only [splitOn_pieces whole some_piece, List.mapM_map]
  rfl

theorem text_inj {p q : List String} (hp : Unbroken p) (hq : Unbroken q) (some_p : p ≠ [])
    (some_q : q ≠ []) (h : text p = text q) : p = q := by
  have chars := congrArg String.toList h
  rw [toList_text, toList_text] at chars
  have pieces := congrArg (List.splitOn '/') (List.cons.inj chars).2
  rw [splitOn_pieces hp some_p, splitOn_pieces hq some_q] at pieces
  exact (List.map_inj_right fun _ _ => String.toList_inj.mp).mp pieces

theorem decodeAll?_concat {path segments : List String} {piece segment : String} :
    decodeAll? (path ++ [piece]) = some (segments ++ [segment]) ↔
      decodeAll? path = some segments ∧ decode? piece.toList = some segment := by
  unfold decodeAll?
  rw [List.mapM_append]
  cases path.mapM fun piece => decode? piece.toList with
  | none => simp
  | some found => cases read : decode? piece.toList <;> simp [read]

theorem length_of_decodeAll? {path segments : List String} (h : decodeAll? path = some segments) :
    path.length = segments.length := by
  induction path generalizing segments with
  | nil =>
    cases h
    rfl
  | cons piece path ih =>
    simp only [decodeAll?, List.mapM_cons, Option.bind_eq_bind, Option.bind_eq_some_iff] at h
    obtain ⟨first, -, rest, read, same⟩ := h
    cases same
    simp [ih read]

/-- Segments that a path keeps: no dot segments, and no character that addresses leave out. -/
def Faithful (segment : String) : Prop :=
  segment ≠ "." ∧ segment ≠ ".." ∧ ∀ c ∈ segment.toList, isDropped c = false

instance : DecidablePred Faithful := fun segment =>
  have : Decidable (∀ c ∈ segment.toList, isDropped c = false) := List.decidableBAll _ _
  inferInstanceAs (Decidable (segment ≠ "." ∧ segment ≠ ".." ∧ _))

theorem kept_eq_self_iff {segment : String} :
    kept segment = segment ↔ ∀ c ∈ segment.toList, isDropped c = false := by
  rw [kept, ← String.toList_inj, String.toList_ofList, List.filter_eq_self]
  simp

theorem decode?_encode_eq_iff {segment : String} :
    decode? (encode segment).toList = some segment ↔
      ∀ c ∈ segment.toList, isDropped c = false := by
  rw [decode?_encode, Option.some.injEq, kept_eq_self_iff]

theorem not_dots_of_faithful {segment : String} (h : Faithful segment) :
    ¬(encode segment = "." ∨ encode segment = "..") := by
  obtain ⟨one, two, stays⟩ := h
  have back := decode?_encode_eq_iff.mpr stays
  rintro (dot | dots)
  · rw [dot] at back
    exact one (Option.some.inj (back.symm.trans (by decide)))
  · rw [dots] at back
    exact two (Option.some.inj (back.symm.trans (by decide)))

theorem push_of_faithful {path : List String} {segment : String} (h : Faithful segment) :
    push path segment = ahead path ++ [encode segment] := by
  rcases push_cases path segment with ⟨dots, -⟩ | ⟨-, dots, -⟩ | ⟨-, pushed⟩
  · exact absurd dots (not_or.mpr ⟨h.1, h.2.1⟩)
  · exact absurd dots (not_dots_of_faithful h)
  · exact pushed

theorem decodeAll?_root : decodeAll? root = some [""] := by decide

/-- Faithful segments are read back, unless the first is empty and gives way to the second. -/
theorem decodeAll?_ofSegments {segments : List String} (faithful : ∀ s ∈ segments, Faithful s)
    (some_segment : segments ≠ []) (named : segments.head? ≠ some "") :
    decodeAll? (ofSegments segments) = some segments := by
  induction segments using List.reverseRecOn with
  | nil => exact absurd rfl some_segment
  | append_singleton segments segment ih =>
    have last : Faithful segment := faithful segment (by simp)
    rw [ofSegments_concat, push_of_faithful last, decodeAll?_concat]
    refine ⟨?_, decode?_encode_eq_iff.mpr last.2.2⟩
    cases segments with
    | nil => rfl
    | cons first rest =>
      have read := ih (fun s member => faithful s (List.mem_append_left _ member)) (by simp)
        (by simpa using named)
      have start : ofSegments (first :: rest) ≠ root := by
        intro same
        rw [same, decodeAll?_root] at read
        cases read
        exact named rfl
      rw [ahead_of_ne start]
      exact read

theorem faithful_of_decodeAll? {segments : List String}
    (read : decodeAll? (ofSegments segments) = some segments) : ∀ s ∈ segments, Faithful s := by
  induction segments using List.reverseRecOn with
  | nil => simp
  | append_singleton segments segment ih =>
    rw [ofSegments_concat] at read
    have short := length_ahead_ofSegments_le segments
    rcases push_cases (ofSegments segments) segment with
      ⟨dots, same⟩ | ⟨-, dots, before, -, pushed⟩ | ⟨text, pushed⟩
    · -- Nothing was added, so a piece is missing.
      rw [same] at read
      have long := length_of_decodeAll? read
      rw [List.length_append, List.length_singleton] at long
      have start : ofSegments segments = root := by
        by_contra other
        rw [ahead_of_ne other] at short
        omega
      rw [start] at long
      have none : segments = [] := by simpa [root] using long
      subst none
      rw [start, decodeAll?_root] at read
      cases read
      exact absurd dots (by decide)
    · -- The empty piece reads as the empty segment, which is no dot segment.
      rw [pushed, decodeAll?_concat] at read
      have empty : segment = "" := Option.some.inj (read.2.symm.trans (by decide))
      subst empty
      exact absurd dots (by decide)
    · rw [pushed, decodeAll?_concat] at read
      have stays := decode?_encode_eq_iff.mp read.2
      have last : Faithful segment := ⟨fun h => text (Or.inl h), fun h => text (Or.inr h), stays⟩
      have before : ∀ s ∈ segments, Faithful s := by
        by_cases start : ofSegments segments = root
        · rw [start, ahead_root] at read
          have none : segments = [] := (Option.some.inj read.1).symm
          simp [none]
        · rw [ahead_of_ne start] at read
          exact ih read.1
      intro s member
      rcases List.mem_append.mp member with member | member
      · exact before s member
      · rw [List.mem_singleton.mp member]
        exact last

/-- A path gives its segments back exactly when each of them is faithful. -/
theorem read?_ofSegments_iff {segments : List String} (some_segment : segments ≠ [])
    (named : segments.head? ≠ some "") :
    read? (text (ofSegments segments)) = some segments ↔ ∀ s ∈ segments, Faithful s := by
  rw [read?_text (unbroken_ofSegments segments) (ofSegments_ne_nil segments)]
  exact ⟨faithful_of_decodeAll?, fun h => decodeAll?_ofSegments h some_segment named⟩

end RecordClient.Path
