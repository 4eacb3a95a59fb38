import CodeIntel.Proofs.Disk.RealPath
import CodeIntel.Url.Basic

/-!
# URLs of real paths

The escapes of a file name form a prefix code, and no escape holds a slash. So
the URL of a real path tells the path, and two real paths with one URL are
equal.
-/

namespace CodeIntel

namespace Percent

def fileNameCode (b : UInt8) : List Char :=
  if inFileName b then escape b else [Char.ofNat b.toNat]

theorem encode_inFileName_cons (b : UInt8) (rest : List UInt8) :
    encode inFileName (b :: rest) =
      fileNameCode b ++ encode inFileName rest := by
  simp [encode, fileNameCode]

theorem fileNameCode_of_escaped {b : UInt8} (h : inFileName b = true) :
    fileNameCode b = escape b := by
  rw [fileNameCode, if_pos h]

theorem fileNameCode_of_plain {b : UInt8} (h : inFileName b = false) :
    fileNameCode b = [Char.ofNat b.toNat] := by
  simp [fileNameCode, h]

theorem toNat_ofNat_byte (b : UInt8) :
    (Char.ofNat b.toNat).toNat = b.toNat := by
  have hlt : b.toNat < 256 := b.toNat_lt
  have hvalid : b.toNat.isValidChar := Or.inl (by omega)
  rw [Char.ofNat, dif_pos hvalid]
  rfl

theorem hexDigit_injective {m n : Nat} (hm : m < 16) (hn : n < 16)
    (h : hexDigit m = hexDigit n) :
    m = n := by
  have hall : ∀ i j : Fin 16, hexDigit i.val = hexDigit j.val → i = j := by
    decide
  exact congrArg Fin.val (hall ⟨m, hm⟩ ⟨n, hn⟩ h)

theorem ofNat_ne_percent {b : UInt8} (h : inFileName b = false) :
    Char.ofNat b.toNat ≠ '%' := by
  intro hc
  have hn := congrArg Char.toNat hc
  rw [toNat_ofNat_byte] at hn
  have hb : b = 0x25 := UInt8.toNat_inj.mp hn
  subst hb
  revert h
  decide

/-- The codes of two bytes cannot be confused, whatever follows them. -/
theorem fileNameCode_append_inj {a b : UInt8} {s t : List Char}
    (h : fileNameCode a ++ s = fileNameCode b ++ t) : a = b ∧ s = t := by
  cases ha : inFileName a with
  | true =>
      cases hb : inFileName b with
      | true =>
          rw [fileNameCode_of_escaped ha, fileNameCode_of_escaped hb] at h
          simp only [escape, List.cons_append, List.nil_append, List.cons.injEq,
            true_and] at h
          obtain ⟨hhigh, hlow, hrest⟩ := h
          have halt : a.toNat < 256 := a.toNat_lt
          have hblt : b.toNat < 256 := b.toNat_lt
          have hdiv := hexDigit_injective (by omega) (by omega) hhigh
          have hmod := hexDigit_injective (by omega) (by omega) hlow
          exact ⟨UInt8.toNat_inj.mp (by omega), hrest⟩
      | false =>
          rw [fileNameCode_of_escaped ha, fileNameCode_of_plain hb] at h
          exact absurd (List.cons.inj h).1.symm (ofNat_ne_percent hb)
  | false =>
      cases hb : inFileName b with
      | true =>
          rw [fileNameCode_of_plain ha, fileNameCode_of_escaped hb] at h
          exact absurd (List.cons.inj h).1 (ofNat_ne_percent ha)
      | false =>
          rw [fileNameCode_of_plain ha, fileNameCode_of_plain hb] at h
          obtain ⟨hchar, hrest⟩ := List.cons.inj h
          have hn := congrArg Char.toNat hchar
          rw [toNat_ofNat_byte, toNat_ofNat_byte] at hn
          exact ⟨UInt8.toNat_inj.mp hn, hrest⟩

theorem fileNameCode_head (b : UInt8) :
    ∃ c rest, fileNameCode b = c :: rest ∧ c ≠ '/' := by
  cases hb : inFileName b with
  | true =>
      exact ⟨'%', _, fileNameCode_of_escaped hb, by decide⟩
  | false =>
      refine ⟨_, [], fileNameCode_of_plain hb, ?_⟩
      intro hc
      have hn := congrArg Char.toNat hc
      rw [toNat_ofNat_byte] at hn
      have hslash : b = 0x2F := UInt8.toNat_inj.mp hn
      subst hslash
      revert hb
      decide

/-- What may follow a name in a path: nothing, or a slash. -/
def EndsName (s : List Char) : Prop :=
  s = [] ∨ ∃ rest, s = '/' :: rest

theorem not_endsName_code_append (b : UInt8) (s : List Char) :
    ¬ EndsName (fileNameCode b ++ s) := by
  obtain ⟨c, rest, hcode, hc⟩ := fileNameCode_head b
  rw [hcode]
  rintro (hnil | ⟨tail, hslash⟩)
  · exact List.cons_ne_nil _ _ hnil
  · exact hc (List.cons.inj hslash).1

theorem encode_append_inj {m n : List UInt8} {s t : List Char} (hs : EndsName s)
    (ht : EndsName t)
    (h : encode inFileName m ++ s = encode inFileName n ++ t) :
    m = n ∧ s = t := by
  induction m generalizing n with
  | nil =>
      cases n with
      | nil =>
          exact ⟨rfl, h⟩
      | cons b rest =>
          rw [encode_inFileName_cons, List.append_assoc] at h
          have hs' : s = fileNameCode b ++ (encode inFileName rest ++ t) := h
          exact absurd (hs' ▸ hs) (not_endsName_code_append b _)
  | cons a rest ih =>
      cases n with
      | nil =>
          rw [encode_inFileName_cons, List.append_assoc] at h
          have ht' : fileNameCode a ++ (encode inFileName rest ++ s) = t := h
          exact absurd (ht' ▸ ht) (not_endsName_code_append a _)
      | cons b tail =>
          rw [encode_inFileName_cons, encode_inFileName_cons, List.append_assoc,
            List.append_assoc] at h
          obtain ⟨rfl, hrest⟩ := fileNameCode_append_inj h
          obtain ⟨rfl, hst⟩ := ih hrest
          exact ⟨rfl, hst⟩

end Percent

namespace Url

open FilePath Percent

/-! # Paths in URLs -/

def placePath (place : List (List UInt8)) : List Char :=
  place.flatMap fun name => '/' :: encode inFileName name

theorem placePath_endsName (place : List (List UInt8)) :
    EndsName (placePath place) := by
  cases place with
  | nil =>
      exact Or.inl rfl
  | cons name rest =>
      exact Or.inr ⟨_, rfl⟩

theorem placePath_injective {p q : List (List UInt8)}
    (h : placePath p = placePath q) : p = q := by
  induction p generalizing q with
  | nil =>
      cases q with
      | nil =>
          rfl
      | cons name rest =>
          exact absurd h (by simp [placePath])
  | cons name rest ih =>
      cases q with
      | nil =>
          exact absurd h (by simp [placePath])
      | cons other tail =>
          have htail : encode inFileName name ++ placePath rest =
              encode inFileName other ++ placePath tail := (List.cons.inj h).2
          obtain ⟨rfl, hrest⟩ :=
            encode_append_inj (placePath_endsName rest)
              (placePath_endsName tail) htail
          rw [ih hrest]

theorem placePath_ne_root {place : List (List UInt8)}
    (h : ∀ name ∈ place, IsPlain name) :
    placePath place ≠ ['/'] := by
  cases place with
  | nil =>
      simp [placePath]
  | cons name rest =>
      intro hroot
      have hnil : encode inFileName name ++ placePath rest =
          encode inFileName [] ++ [] :=
        (List.cons.inj hroot).2
      obtain ⟨hname, -⟩ :=
        encode_append_inj (placePath_endsName rest) (Or.inl rfl) hnil
      exact (h name List.mem_cons_self).1 hname

theorem ofPath?_ofComponents {place : List (List UInt8)}
    (h : ∀ name ∈ place, IsPlain name) :
    ofPath? (ofComponents place) =
      some ⟨"file://" ++
        String.ofList (if place = [] then ['/'] else placePath place)⟩ := by
  rw [ofPath?, if_pos (isAbsolute_ofComponents place),
    components_ofComponents h]
  cases place with
  | nil =>
      rfl
  | cons name rest =>
      rfl

/-- Two real paths with one URL are equal. -/
theorem ofPath?_injOn_isReal {p q : FilePath} (hp : p.IsReal) (hq : q.IsReal)
    (h : ofPath? p = ofPath? q) : p = q := by
  obtain ⟨place, hplain, rfl⟩ := hp
  obtain ⟨other, hother, rfl⟩ := hq
  rw [ofPath?_ofComponents hplain, ofPath?_ofComponents hother] at h
  have hpath : (if place = [] then ['/'] else placePath place) =
      if other = [] then ['/'] else placePath other := by
    simpa using congrArg (fun u => u.map (·.text.toList)) h
  by_cases hnil : place = []
  · by_cases hnil' : other = []
    · rw [hnil, hnil']
    · rw [if_pos hnil, if_neg hnil'] at hpath
      exact absurd hpath.symm (placePath_ne_root hother)
  · by_cases hnil' : other = []
    · rw [if_neg hnil, if_pos hnil'] at hpath
      exact absurd hpath (placePath_ne_root hplain)
    · rw [if_neg hnil, if_neg hnil'] at hpath
      rw [placePath_injective hpath]

end Url
end CodeIntel
