import KvEngine.Lib.Bytes
import KvEngine.Lib.Except

/-!
# Escaping of SCRAM user names (`cb::sasl::username`)

In a SCRAM message the user name is an attribute value, so `,` (which
separates attributes) and `=` (which starts an escape) are escaped as `=2C`
and `=3D`. `encode` and `decode` do it in place on a `std::string`: `encode`
scans with `find_first_of(",=", index)` and replaces each hit by three bytes,
and `decode` scans with `find('=', index)` and replaces each escape by one
byte, stepping past what it wrote so that a `=` it produced is not decoded
again.

- `encodeSpec`, `decodeSpec`: the escaping as a map over the bytes, and the
  unescaping as a left-to-right scan of the input; `hasInvalidEscape` is the
  input `decode` refuses.
- `encode_eq_encodeSpec`, `decode_eq_decodeSpec`: the in-place loops compute
  them, for every input.
- `username_escaping_bijective`: `decode (encode u) = u` and `encode u` holds
  no `,`; an accepted name without `,` is re-encoded to itself; `decode`
  fails exactly on an invalid escape; so `encode` is injective.
-/

namespace KvEngine.Cbsasl.Username

open ByteList

/-- `','` -/
def comma : UInt8 := 0x2C

/-- `'='` -/
def equals : UInt8 := 0x3D

/-- `"=2C"` -/
def escapedComma : List UInt8 := [0x3D, 0x32, 0x43]

/-- `"=3D"` -/
def escapedEquals : List UInt8 := [0x3D, 0x33, 0x44]

/-- The bytes `find_first_of(",=", ...)` looks for. -/
def isSpecial (b : UInt8) : Bool := b == comma || b == equals

def invalidEscapeShort : String :=
  "cb::sasl::username::decode: Invalid escape sequence, Should be =2C or =3D"

def invalidEscape : String :=
  "cb::sasl::username::decode: Invalid escape sequence. Should be =2C or =3D"

/-- The `while` loop of `encode` from `index`. Each round escapes one `,` or
`=`, so `encode` gives it one round more than the name has bytes. -/
def encodeLoop : Nat → List UInt8 → Nat → List UInt8
  | 0, ret, _ => ret
  | fuel + 1, ret, index =>
    match findFrom isSpecial ret index with
    | none => ret
    | some i =>
      let ret := if ret.getD i 0 == comma then replace ret i 1 escapedComma else replace ret i 1 escapedEquals
      -- `++index`: the scan goes on after the `=` just written
      encodeLoop fuel ret (i + 1)

/-- `cb::sasl::username::encode(username)`. -/
def encode (username : List UInt8) : List UInt8 :=
  encodeLoop (username.length + 1) username 0

/-- The `do ... while` loop of `decode`, at the `=` at `index`. Each round
decodes one escape, so `decode` gives it one round per byte. -/
def decodeLoop : Nat → List UInt8 → Nat → Except String (List UInt8)
  | 0, ret, _ => .ok ret
  | fuel + 1, ret, index =>
    if ret.length < index + 3 then .error invalidEscapeShort
    else if ret.getD (index + 1) 0 == 0x32 && ret.getD (index + 2) 0 == 0x43 then
      let ret := replace ret index 3 [comma]
      -- `index++`: the `,` just written is stepped over
      match findFrom (· == equals) ret (index + 1) with
      | none => .ok ret
      | some i => decodeLoop fuel ret i
    else if ret.getD (index + 1) 0 == 0x33 && ret.getD (index + 2) 0 == 0x44 then
      let ret := replace ret index 3 [equals]
      -- `index++`: the `=` just written is not decoded again
      match findFrom (· == equals) ret (index + 1) with
      | none => .ok ret
      | some i => decodeLoop fuel ret i
    else .error invalidEscape

/-- `cb::sasl::username::decode(username)`; an exception is an `error`. -/
def decode (username : List UInt8) : Except String (List UInt8) :=
  match findFrom (· == equals) username 0 with
  | none => .ok username
  | some index => decodeLoop username.length username index

/-! ## The escaping as a map over the bytes -/

/-- What `encode` writes for one byte. -/
def escapeByte (b : UInt8) : List UInt8 :=
  if b = comma then escapedComma else if b = equals then escapedEquals else [b]

def encodeSpec (u : List UInt8) : List UInt8 := u.flatMap escapeByte

/-- The byte an escape `=d₁d₂` stands for, if it is one. -/
def unescape (d₁ d₂ : UInt8) : Option UInt8 :=
  if d₁ = 0x32 ∧ d₂ = 0x43 then some comma else if d₁ = 0x33 ∧ d₂ = 0x44 then some equals else none

/-- The unescaping, left to right: an escape is read as a whole and the scan
goes on after it. -/
def decodeSpec : List UInt8 → Except String (List UInt8)
  | [] => .ok []
  | b :: rest =>
    if b = equals then
      match rest with
      | d₁ :: d₂ :: rest' =>
        if d₁ = 0x32 ∧ d₂ = 0x43 then (comma :: ·) <$> decodeSpec rest'
        else if d₁ = 0x33 ∧ d₂ = 0x44 then (equals :: ·) <$> decodeSpec rest'
        else .error invalidEscape
      | _ => .error invalidEscapeShort
    else (b :: ·) <$> decodeSpec rest

/-- Whether a left-to-right scan of `s`, stepping over each `=2C` and `=3D`,
meets a `=` that is not followed by `2C` or `3D`. -/
def hasInvalidEscape : List UInt8 → Bool
  | [] => false
  | b :: rest =>
    if b = equals then
      match rest with
      | d₁ :: d₂ :: rest' =>
        if (d₁ = 0x32 ∧ d₂ = 0x43) ∨ (d₁ = 0x33 ∧ d₂ = 0x44) then hasInvalidEscape rest' else true
      | _ => true
    else hasInvalidEscape rest

/-! ## `encode` -/

@[simp] theorem encodeSpec_nil : encodeSpec [] = [] := rfl

@[simp] theorem encodeSpec_cons (b : UInt8) (u : List UInt8) :
    encodeSpec (b :: u) = escapeByte b ++ encodeSpec u := List.flatMap_cons

theorem escapeByte_of_not_isSpecial {b : UInt8} (h : isSpecial b = false) : escapeByte b = [b] := by
  simp only [isSpecial, Bool.or_eq_false_iff, beq_eq_false_iff_ne] at h
  simp [escapeByte, h.1, h.2]

/-- The escape of `,` or `=`: an `=` and two bytes that are neither. -/
theorem escapeByte_of_isSpecial {b : UInt8} (h : isSpecial b = true) :
    ∃ d₁ d₂, escapeByte b = [equals, d₁, d₂] ∧ isSpecial d₁ = false ∧ isSpecial d₂ = false ∧
      unescape d₁ d₂ = some b ∧
      ∀ ret i, (if b == comma then replace ret i 1 escapedComma else replace ret i 1 escapedEquals) =
        replace ret i 1 [equals, d₁, d₂] := by
  simp only [isSpecial, Bool.or_eq_true, beq_iff_eq] at h
  rcases h with rfl | rfl
  · exact ⟨0x32, 0x43, rfl, rfl, rfl, rfl, fun _ _ => rfl⟩
  · exact ⟨0x33, 0x44, rfl, rfl, rfl, rfl, fun _ _ => rfl⟩

/-- The loop of `encode` at `pre.length`, with the bytes `w` before the
unscanned `rest` already clear of `,` and `=`: it escapes `rest`, given a round
for each byte to escape and one to find none. -/
theorem encodeLoop_spec (rest : List UInt8) :
    ∀ (fuel : Nat) (pre w : List UInt8), (∀ b ∈ w, isSpecial b = false) →
      (rest.filter isSpecial).length < fuel →
      encodeLoop fuel (pre ++ w ++ rest) pre.length = pre ++ w ++ encodeSpec rest := by
  induction rest with
  | nil =>
    intro fuel pre w hw hfuel
    obtain ⟨fuel, rfl⟩ : ∃ f, fuel = f + 1 := ⟨fuel - 1, by omega⟩
    -- nothing left to escape past `w`
    simp only [List.append_nil, encodeSpec_nil, encodeLoop, findFrom_append_of_all_fail pre w hw]
  | cons b rest ih =>
    intro fuel pre w hw hfuel
    cases hb : isSpecial b with
    | false =>
      -- `b` joins the bytes already clear
      have h := ih fuel pre (w ++ [b]) (by
        intro c hc
        rcases List.mem_append.mp hc with hc | hc
        · exact hw c hc
        · rw [List.mem_singleton.mp hc]; exact hb) (by simpa [List.filter_cons, hb] using hfuel)
      simpa [escapeByte_of_not_isSpecial hb, List.append_assoc] using h
    | true =>
      obtain ⟨fuel, rfl⟩ : ∃ f, fuel = f + 1 := ⟨fuel - 1, by omega⟩
      obtain ⟨d₁, d₂, hesc, hd₁, hd₂, -, hwrite⟩ := escapeByte_of_isSpecial hb
      -- the search stops at `b`, which is replaced by its escape
      have hfind := findFrom_append_of_first pre w rest hw hb
      have hget : (pre ++ w ++ b :: rest).getD (pre ++ w).length 0 = b := by simp
      have hrepl : replace (pre ++ w ++ b :: rest) (pre ++ w).length 1 [equals, d₁, d₂] =
          (pre ++ w ++ [equals]) ++ [d₁, d₂] ++ rest := by
        have := replace_append (pre ++ w) [b] rest [equals, d₁, d₂]
        simpa [List.append_assoc] using this
      have h := ih fuel (pre ++ w ++ [equals]) [d₁, d₂] (by simp [hd₁, hd₂])
        (by simpa [List.filter_cons, hb] using hfuel)
      calc encodeLoop (fuel + 1) (pre ++ w ++ b :: rest) pre.length
          = encodeLoop fuel (replace (pre ++ w ++ b :: rest) (pre ++ w).length 1 [equals, d₁, d₂])
              ((pre ++ w).length + 1) := by
            simp only [encodeLoop, hfind, hget, hwrite]
        _ = pre ++ w ++ encodeSpec (b :: rest) := by
            rw [hrepl]
            simpa [hesc, List.append_assoc, Nat.add_assoc] using h

theorem encode_eq_encodeSpec (username : List UInt8) : encode username = encodeSpec username := by
  have h := encodeLoop_spec username (username.length + 1) [] [] (by simp)
    (Nat.lt_succ_of_le (List.length_filter_le _ _))
  simpa [encode] using h

/-! ## `decode` -/

@[simp] theorem decodeSpec_nil : decodeSpec [] = .ok [] := rfl

theorem decodeSpec_of_ne {b : UInt8} (h : b ≠ equals) (rest : List UInt8) :
    decodeSpec (b :: rest) = (b :: ·) <$> decodeSpec rest := by
  rw [decodeSpec.eq_def]
  simp only [if_neg h]

theorem decodeSpec_escape {d₁ d₂ x : UInt8} (hu : unescape d₁ d₂ = some x) (rest : List UInt8) :
    decodeSpec (equals :: d₁ :: d₂ :: rest) = (x :: ·) <$> decodeSpec rest := by
  unfold unescape at hu
  split at hu
  · cases hu
    simp [decodeSpec, *]
  · split at hu
    · cases hu
      simp [decodeSpec, *]
    · cases hu

theorem decodeSpec_invalid {d₁ d₂ : UInt8} (hu : unescape d₁ d₂ = none) (rest : List UInt8) :
    decodeSpec (equals :: d₁ :: d₂ :: rest) = .error invalidEscape := by
  unfold unescape at hu
  split at hu
  · cases hu
  · split at hu
    · cases hu
    · simp [decodeSpec, *]

theorem decodeSpec_short {rest : List UInt8} (h : rest.length < 2) :
    decodeSpec (equals :: rest) = .error invalidEscapeShort := by
  match rest, h with
  | [], _ => rfl
  | [_], _ => rfl

/-- Bytes without `=` are copied. -/
theorem decodeSpec_append_of_free {w : List UInt8} (hw : ∀ b ∈ w, (b == equals) = false)
    (rest : List UInt8) : decodeSpec (w ++ rest) = (w ++ ·) <$> decodeSpec rest := by
  induction w with
  | nil => simp
  | cons b w ih =>
    have hb : b ≠ equals := by simpa using hw b (List.mem_cons_self ..)
    rw [List.cons_append, decodeSpec_of_ne hb, ih (fun c hc => hw c (List.mem_cons_of_mem b hc))]
    simp [Functor.map_map]

/-- One round of `decodeLoop` at a valid escape: the escape becomes its byte
and the scan goes on after it. -/
theorem decodeLoop_escape {d₁ d₂ x : UInt8} (hu : unescape d₁ d₂ = some x) (fuel : Nat)
    (pre rest : List UInt8) :
    decodeLoop (fuel + 1) (pre ++ equals :: d₁ :: d₂ :: rest) pre.length =
      (findFrom (· == equals) (pre ++ x :: rest) (pre.length + 1)).elim (.ok (pre ++ x :: rest))
        (decodeLoop fuel (pre ++ x :: rest)) := by
  have hrepl : ∀ y, replace (pre ++ equals :: d₁ :: d₂ :: rest) pre.length 3 [y] = pre ++ y :: rest := by
    intro y
    simpa using replace_append pre [equals, d₁, d₂] rest [y]
  have hlen : ¬ (pre ++ equals :: d₁ :: d₂ :: rest).length < pre.length + 3 := by simp
  unfold unescape at hu
  split at hu
  · cases hu
    simp only [decodeLoop, hlen, ↓reduceIte, hrepl]
    cases findFrom (· == equals) (pre ++ comma :: rest) (pre.length + 1) <;> simp [*]
  · split at hu
    · cases hu
      simp only [decodeLoop, hlen, ↓reduceIte, hrepl]
      cases findFrom (· == equals) (pre ++ equals :: rest) (pre.length + 1) <;> simp [*]
    · cases hu

theorem decodeLoop_invalid {d₁ d₂ : UInt8} (hu : unescape d₁ d₂ = none) (fuel : Nat)
    (pre rest : List UInt8) :
    decodeLoop (fuel + 1) (pre ++ equals :: d₁ :: d₂ :: rest) pre.length = .error invalidEscape := by
  have hlen : ¬ (pre ++ equals :: d₁ :: d₂ :: rest).length < pre.length + 3 := by simp
  unfold unescape at hu
  split at hu
  · cases hu
  · split at hu
    · cases hu
    · -- neither `2C` nor `3D` follows the `=`
      rename_i hcomma hequals
      rw [decodeLoop, if_neg hlen]
      simp [hcomma, hequals]

theorem decodeLoop_short {rest : List UInt8} (h : rest.length < 2) (fuel : Nat) (pre : List UInt8) :
    decodeLoop (fuel + 1) (pre ++ equals :: rest) pre.length = .error invalidEscapeShort := by
  have hlen : (pre ++ equals :: rest).length < pre.length + 3 := by simp; omega
  rw [decodeLoop, if_pos hlen]

/-- The scan that follows a decoded escape (and starts `decode`): given that
the loop decodes every escape it is started at with bytes to spare, the search
for the next `=` after `pre` and the rounds from there decode what follows
`pre`. -/
theorem decodeLoop_scan {fuel : Nat}
    (hloop : ∀ pre t, t.length < fuel →
      decodeLoop fuel (pre ++ equals :: t) pre.length = (pre ++ ·) <$> decodeSpec (equals :: t))
    (pre t : List UInt8) (ht : t.length ≤ fuel) :
    (findFrom (· == equals) (pre ++ t) pre.length).elim (.ok (pre ++ t)) (decodeLoop fuel (pre ++ t)) =
      (pre ++ ·) <$> decodeSpec t := by
  cases hfind : t.find? (· == equals) with
  | none =>
    -- no `=` after `pre`: the rest is copied
    have hw : ∀ b ∈ t, (b == equals) = false := by simpa using List.find?_eq_none.mp hfind
    have hcopy : decodeSpec t = .ok t := by simpa using decodeSpec_append_of_free hw []
    rw [findFrom_append_of_all_fail pre t hw, hcopy]
    rfl
  | some x =>
    -- the first `=` after `pre` ends a piece `w` that is copied
    obtain ⟨hx, w, t', rfl, hw⟩ := List.find?_eq_some_iff_append.mp hfind
    have hw : ∀ b ∈ w, (b == equals) = false := by simpa using hw
    have hxe : x = equals := by simpa using hx
    subst hxe
    have hlen : t'.length < fuel := by simp at ht; omega
    rw [← List.append_assoc, findFrom_append_of_first pre w t' hw hx, Option.elim,
      hloop (pre ++ w) t' hlen, decodeSpec_append_of_free hw]
    simp [Functor.map_map]

/-- The loop of `decode` at an `=` after the decoded `pre`, with more rounds
than bytes follow the `=`, decodes from there. -/
theorem decodeLoop_spec (fuel : Nat) : ∀ pre t, t.length < fuel →
    decodeLoop fuel (pre ++ equals :: t) pre.length = (pre ++ ·) <$> decodeSpec (equals :: t) := by
  induction fuel with
  | zero =>
    intro pre t ht
    exact absurd ht (Nat.not_lt_zero _)
  | succ fuel ih =>
    intro pre t ht
    match t, ht with
    | [], _ | [_], _ =>
      rw [decodeLoop_short (by simp), decodeSpec_short (by simp)]
      rfl
    | d₁ :: d₂ :: rest, ht =>
      cases hu : unescape d₁ d₂ with
      | none =>
        rw [decodeLoop_invalid hu, decodeSpec_invalid hu]
        rfl
      | some x =>
        -- the escape is decoded, and the scan after it has one round less
        have h := decodeLoop_scan ih (pre ++ [x]) rest (by simp at ht; omega)
        rw [decodeLoop_escape hu, decodeSpec_escape hu]
        simpa [Functor.map_map] using h

theorem decode_eq_decodeSpec (username : List UInt8) : decode username = decodeSpec username := by
  have h := decodeLoop_scan (decodeLoop_spec username.length) [] username (Nat.le_refl _)
  simp only [List.nil_append, List.length_nil] at h
  unfold decode
  cases hfind : findFrom (· == equals) username 0 <;> simpa [hfind] using h

/-! ## The escaping is a bijection onto the names without `,` that decode -/

theorem decodeSpec_encodeSpec (u : List UInt8) : decodeSpec (encodeSpec u) = .ok u := by
  induction u with
  | nil => rfl
  | cons b u ih =>
    cases hb : isSpecial b with
    | false =>
      have hne : b ≠ equals := by simp_all [isSpecial]
      rw [encodeSpec_cons, escapeByte_of_not_isSpecial hb, List.singleton_append, decodeSpec_of_ne hne, ih]
      rfl
    | true =>
      obtain ⟨d₁, d₂, hesc, -, -, hu, -⟩ := escapeByte_of_isSpecial hb
      rw [encodeSpec_cons, hesc, List.cons_append, List.cons_append, List.cons_append, List.nil_append,
        decodeSpec_escape hu, ih]
      rfl

theorem comma_not_mem_escapeByte (b : UInt8) : comma ∉ escapeByte b := by
  unfold escapeByte
  split_ifs with hc
  · decide
  · decide
  · simpa [eq_comm] using hc

theorem comma_not_mem_encodeSpec (u : List UInt8) : comma ∉ encodeSpec u := by
  simp only [encodeSpec, List.mem_flatMap, not_exists, not_and]
  exact fun b _ => comma_not_mem_escapeByte b

/-- A name without `,` that decodes is the escape of what it decodes to. -/
theorem encodeSpec_of_decodeSpec {s d : List UInt8} (h : decodeSpec s = .ok d) (hs : comma ∉ s) :
    encodeSpec d = s := by
  induction s using decodeSpec.induct generalizing d with
  | case1 =>
    cases h
    rfl
  | case2 d₁ d₂ rest hd ih | case3 d₁ d₂ rest _ hd ih =>
    obtain ⟨rfl, rfl⟩ := hd
    rw [decodeSpec_escape rfl] at h
    obtain ⟨d', hd', rfl⟩ := Except.map_eq_ok.mp h
    rw [encodeSpec_cons, ih hd' (fun hc => hs (by simp [hc]))]
    rfl
  | case4 d₁ d₂ rest hc he =>
    rw [decodeSpec_invalid (by simp [unescape, hc, he])] at h
    cases h
  | case5 rest hshort =>
    rw [decodeSpec_short (by
      match rest, hshort with
      | [], _ | [_], _ => simp
      | _ :: _ :: _, hshort => exact absurd rfl (hshort _ _ _))] at h
    cases h
  | case6 b rest hb ih =>
    rw [decodeSpec_of_ne hb] at h
    obtain ⟨d', hd', rfl⟩ := Except.map_eq_ok.mp h
    have hbc : b ≠ comma := fun hc => hs (by simp [hc])
    rw [encodeSpec_cons, ih hd' (fun hc => hs (by simp [hc])), escapeByte, if_neg hbc, if_neg hb]
    rfl

@[simp] theorem hasInvalidEscape_nil : hasInvalidEscape [] = false := rfl

theorem hasInvalidEscape_of_ne {b : UInt8} (h : b ≠ equals) (rest : List UInt8) :
    hasInvalidEscape (b :: rest) = hasInvalidEscape rest := by
  rw [hasInvalidEscape.eq_def]
  simp only [if_neg h]

theorem hasInvalidEscape_escape (d₁ d₂ : UInt8) (rest : List UInt8) :
    hasInvalidEscape (equals :: d₁ :: d₂ :: rest) =
      if (d₁ = 0x32 ∧ d₂ = 0x43) ∨ (d₁ = 0x33 ∧ d₂ = 0x44) then hasInvalidEscape rest else true := by
  rw [hasInvalidEscape.eq_def]
  simp only [↓reduceIte]

/-- The scan fails exactly at an `=` that does not start `=2C` or `=3D`. -/
theorem decodeSpec_eq_error_iff (s : List UInt8) :
    (∃ e, decodeSpec s = .error e) ↔ hasInvalidEscape s = true := by
  induction s using hasInvalidEscape.induct with
  | case1 => simp
  | case2 d₁ d₂ rest hd ih =>
    obtain ⟨x, hu⟩ : ∃ x, unescape d₁ d₂ = some x := by
      rcases hd with ⟨rfl, rfl⟩ | ⟨rfl, rfl⟩
      · exact ⟨_, rfl⟩
      · exact ⟨_, rfl⟩
    rw [decodeSpec_escape hu, hasInvalidEscape_escape, if_pos hd, ← ih]
    exact exists_congr fun _ => Except.map_eq_error
  | case3 d₁ d₂ rest hd =>
    have hu : unescape d₁ d₂ = none := by
      simp only [not_or] at hd
      simp [unescape, hd.1, hd.2]
    simp [decodeSpec_invalid hu, hasInvalidEscape_escape, hd]
  | case4 rest hshort =>
    match rest, hshort with
    | [], _ | [_], _ => simp [decodeSpec_short, hasInvalidEscape]
    | _ :: _ :: _, hshort => exact absurd rfl (hshort _ _ _)
  | case5 b rest hb ih =>
    rw [decodeSpec_of_ne hb, hasInvalidEscape_of_ne hb, ← ih]
    exact exists_congr fun _ => Except.map_eq_error

/-- `cb::sasl::username::encode` and `decode` are inverse on the names that
decode and hold no `,`: `decode` takes back what `encode` wrote, which holds
no `,`; `encode` writes back an accepted name without `,`; `decode` throws
exactly on an `=` that starts no escape; and no two names share an encoding. -/
theorem username_escaping_bijective :
    (∀ u, decode (encode u) = .ok u ∧ comma ∉ encode u) ∧
      (∀ s d, decode s = .ok d → comma ∉ s → encode d = s) ∧
      (∀ s, (∃ e, decode s = .error e) ↔ hasInvalidEscape s = true) ∧
      (∀ u v, encode u = encode v → u = v) := by
  have hround : ∀ u, decode (encode u) = .ok u := fun u => by
    rw [decode_eq_decodeSpec, encode_eq_encodeSpec, decodeSpec_encodeSpec]
  refine ⟨fun u => ⟨hround u, ?_⟩, fun s d h hs => ?_, fun s => ?_, fun u v h => ?_⟩
  · rw [encode_eq_encodeSpec]
    exact comma_not_mem_encodeSpec u
  · rw [decode_eq_decodeSpec] at h
    rw [encode_eq_encodeSpec]
    exact encodeSpec_of_decodeSpec h hs
  · rw [decode_eq_decodeSpec]
    exact decodeSpec_eq_error_iff s
  · -- `decode` undoes both encodings
    have h' := hround v
    rw [← h, hround u] at h'
    cases h'
    rfl

end KvEngine.Cbsasl.Username
