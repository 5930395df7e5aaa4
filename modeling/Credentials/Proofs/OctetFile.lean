import Credentials.Proofs.EnvFile.Concatenation
import Credentials.Proofs.FileTree
import Credentials.Proofs.StoredFile
import Credentials.Proofs.Text.LowOctets

/-!
# Files of any octets

The octets of a file need not be those of a text.  Reading it does not fail because of them
(`read_addFile_uniform`), and a file that a tree stores is read whatever its octets are
(`Stores.settings_text`).  Each line is read from its own octets (`parseOctets_eq_foldl_lines`), so
that damage to a file stays on its line (`settings_of_damaged_file`).
-/

namespace Credentials

open Text

namespace EnvFile

/-- The values that the octets of a file give to its keys. -/
def parseOctets (octets : List UInt8) : Values :=
  parse (String.ofList (Utf8.decode octets))

/-- The values that octets give to their keys if a line feed follows them. -/
def parseEnded (octets : List UInt8) : Values :=
  parse (String.ofList (withoutReturn (Utf8.decode octets)))

end EnvFile

/-! ### Reading -/

namespace FileTree

variable (t : FileTree) (p here : Path)

/-- In a tree with a file of any octets, what is read does not depend on the octets, or it is
them. -/
theorem read_addFile_uniform (s : Text) :
  (∃ contents, ∀ octets, (t.addFile p octets).read here s = contents) ∨
  ∀ octets, (t.addFile p octets).read here s = .ok octets
  := by
  by_cases h : ∀ octets, (t.addFile p octets).read here s = .ok octets
  · right
    apply h
  · left
    obtain ⟨octets, hne⟩ := not_forall.mp h
    use (t.addFile p octets).read here s
    intro octets'
    apply (t.read_addFile p octets' octets here s).resolve_right
    rintro ⟨-, heq⟩
    apply hne heq

/-- Reading settings does not fail because of the octets of a file. -/
theorem settings_addFile_uniform (path : String) :
  (∃ outcome, ∀ octets, (t.addFile p octets).settings here path = outcome) ∨
  ∀ octets, (t.addFile p octets).settings here path = .ok ⟨path, EnvFile.parseOctets octets⟩
  := by
  apply (t.read_addFile_uniform p here path.toList).imp
  · rintro ⟨contents, h⟩
    use Settings.ofFile path contents
    intro octets
    rw [settings, h]
  · intro h octets
    rw [settings, h]
    rfl

/-- The settings at the text of the path of a stored file are those of its octets. -/
theorem Stores.settings_text {t : FileTree} {p : Path} {octets : List UInt8}
    (h : t.Stores p octets) (hplain : p.IsPlain) :
  t.settings .root (String.ofList p.text)
    = .ok ⟨String.ofList p.text, EnvFile.parseOctets octets⟩
  := by
  rw [settings, String.toList_ofList, h.read_text hplain]
  rfl

end FileTree

/-! ### Lines -/

namespace EnvFile

theorem splitOn_feed_decode (octets : List UInt8) :
  (Utf8.decode octets).splitOn '\n' = (octets.splitOn 0x0A).map Utf8.decode
  := Utf8.splitOn_decode (by decide) octets

theorem parseEnded_eq_parseOctets {octets : List UInt8} (h : octets.getLast? ≠ some 0x0D) :
  parseEnded octets = parseOctets octets
  := by
  have hreturn : (Utf8.decode octets).getLast? ≠ some '\r' :=
    mt (Utf8.getLast?_of_getLast?_decode (by decide)) h
  rw [parseEnded, withoutReturn, if_neg hreturn, parseOctets]

/-- The octet of a line feed ends the octets before it, and those after it are read as a file. -/
theorem parseOctets_append (a b : List UInt8) :
  parseOctets (a ++ 0x0A :: b) = (parseEnded a).overriddenBy (parseOctets b)
  := by
  have hdecode : Utf8.decode (a ++ 0x0A :: b) = Utf8.decode a ++ '\n' :: Utf8.decode b :=
    Utf8.decode_append_low (c := '\n') (by decide) a b
  rw [parseOctets, hdecode, parse_append, parseEnded, parseOctets]

/-- The values of a file are those of its lines, each read from its own octets and overridden by the
lines after it. -/
theorem parseOctets_eq_foldl_lines (octets : List UInt8) :
  parseOctets octets
    = ((withoutReturns ((octets.splitOn 0x0A).map Utf8.decode)).map
        fun l => parse (String.ofList l)).foldl Values.overriddenBy ∅
  := by
  rw [parseOctets, parse_eq_foldl_lines, String.toList_ofList, cutLines, splitOn_feed_decode]

/-- A key that neither of two lines assigns has the same value whichever of them is in a file. -/
theorem getElem?_parseOctets_line {l l' : List UInt8} {key : String} (h : key ∉ parseEnded l)
    (h' : key ∉ parseEnded l') (a b : List UInt8) :
  (parseOctets (a ++ 0x0A :: (l ++ 0x0A :: b)))[key]?
    = (parseOctets (a ++ 0x0A :: (l' ++ 0x0A :: b)))[key]?
  := by
  simp only [parseOctets_append, Values.overriddenBy, Std.ExtTreeMap.getElem?_union,
    Std.ExtTreeMap.getElem?_eq_none h, Std.ExtTreeMap.getElem?_eq_none h']

theorem parseOctets_of_decode {octets : List UInt8} {key text value : Text}
    (h : Utf8.decode octets = key ++ '=' :: text) (hkey : IsKey key) (htext : AllInline text)
    (hname : String.ofList key ≠ Member.parentName) (hvalue : valueOf key (trim text) = value) :
  parseOctets octets = (∅ : Values).insert (String.ofList key) (String.ofList value)
  := by
  rw [parseOctets, h]
  apply parse_ofList_key_append hkey htext hname hvalue

theorem parseOctets_append_of_getLast? {a : List UInt8} (h : a.getLast? ≠ some 0x0D)
    (b : List UInt8) :
  parseOctets (a ++ 0x0A :: b) = (parseOctets a).overriddenBy (parseOctets b)
  := by
  rw [parseOctets_append, parseEnded_eq_parseOctets h]

/-- Reading a file does not fail because of its octets: a file that a tree stores is read, and
elsewhere the octets do not decide whether reading fails.  Files whose octets are cut in two at a
line feed give the settings of the first part, overridden by those of the second, and every line of a
file is read from the octets between two line feeds, so that other lines neither see what stands on
it nor lose a line end to it. -/
theorem settings_of_damaged_file :
  (∀ (t : FileTree) (p : Path) (octets : List UInt8), p.IsPlain → t.Stores p octets →
    t.settings .root (String.ofList p.text)
      = .ok ⟨String.ofList p.text, parseOctets octets⟩) ∧
  (∀ (t : FileTree) (p here : Path) (path : String),
    (∃ outcome, ∀ octets, (t.addFile p octets).settings here path = outcome) ∨
    ∀ octets, (t.addFile p octets).settings here path = .ok ⟨path, parseOctets octets⟩) ∧
  (∀ (t ta tb : FileTree) (p : Path) (a b : List UInt8), p.IsPlain → a.getLast? ≠ some 0x0D →
    t.Stores p (a ++ 0x0A :: b) → ta.Stores p a → tb.Stores p b →
    ∃ values later,
      ta.settings .root (String.ofList p.text) = .ok ⟨String.ofList p.text, values⟩ ∧
      tb.settings .root (String.ofList p.text) = .ok ⟨String.ofList p.text, later⟩ ∧
      t.settings .root (String.ofList p.text)
        = .ok ⟨String.ofList p.text, values.overriddenBy later⟩) ∧
  (∀ a b : List UInt8, a.getLast? ≠ some 0x0D →
    parseOctets (a ++ 0x0A :: b) = (parseOctets a).overriddenBy (parseOctets b)) ∧
  (∀ octets : List UInt8,
    (Utf8.decode octets).splitOn '\n' = (octets.splitOn 0x0A).map Utf8.decode) ∧
  (∀ octets : List UInt8, parseOctets octets
    = ((withoutReturns ((octets.splitOn 0x0A).map Utf8.decode)).map
        fun l => parse (String.ofList l)).foldl Values.overriddenBy ∅) ∧
  ∀ (a l l' b : List UInt8) (key : String), key ∉ parseEnded l → key ∉ parseEnded l' →
    (parseOctets (a ++ 0x0A :: (l ++ 0x0A :: b)))[key]?
      = (parseOctets (a ++ 0x0A :: (l' ++ 0x0A :: b)))[key]?
  := by
  refine ⟨fun t p octets hplain h => h.settings_text hplain,
    fun t p here path => t.settings_addFile_uniform p here path, ?_,
    fun a b h => parseOctets_append_of_getLast? h b, splitOn_feed_decode,
    parseOctets_eq_foldl_lines, fun a l l' b key h h' => getElem?_parseOctets_line h h' a b⟩
  intro t ta tb p a b hplain hlast h ha hb
  use parseOctets a, parseOctets b, ha.settings_text hplain, hb.settings_text hplain
  rw [h.settings_text hplain, parseOctets_append_of_getLast? hlast]

/-- Three files are written and read: in the first one, a sequence is cut off by the end of its line,
and the line after it is read as in a file of its own.  The line before it is left alone, too. -/
theorem settings_of_truncated_line :
  (∃ t ta tb : FileTree,
    (FileTree.ofDirectory ⟨["work".toList]⟩).write? ⟨["work".toList, ".env".toList]⟩
      ([0x41, 0x3D, 0xE2, 0x82] ++ 0x0A :: [0x42, 0x3D, 0x31]) = some t ∧
    (FileTree.ofDirectory ⟨["work".toList]⟩).write? ⟨["work".toList, ".env".toList]⟩
      [0x41, 0x3D, 0xE2, 0x82] = some ta ∧
    (FileTree.ofDirectory ⟨["work".toList]⟩).write? ⟨["work".toList, ".env".toList]⟩
      [0x42, 0x3D, 0x31] = some tb ∧
    ta.settings .root "/work/.env" = .ok ⟨"/work/.env", (∅ : Values).insert "A" "\ufffd"⟩ ∧
    tb.settings .root "/work/.env" = .ok ⟨"/work/.env", (∅ : Values).insert "B" "1"⟩ ∧
    t.settings .root "/work/.env" = .ok ⟨"/work/.env",
      Values.overriddenBy ((∅ : Values).insert "A" "\ufffd") ((∅ : Values).insert "B" "1")⟩) ∧
  ([0x41, 0x3D, 0xE2, 0x82] : List UInt8).getLast? ≠ some 0x0D ∧
    "B" ∉ parseEnded [0x41, 0x3D, 0xE2, 0x82] ∧ "B" ∉ parseEnded [0x41, 0x3D, 0x31] ∧
    (parseOctets ([0x42, 0x3D, 0x31] ++ 0x0A :: ([0x41, 0x3D, 0xE2, 0x82] ++ 0x0A :: [])))["B"]?
      = (parseOctets ([0x42, 0x3D, 0x31] ++ 0x0A :: ([0x41, 0x3D, 0x31] ++ 0x0A :: [])))["B"]?
  := by
  have hlast : ([0x41, 0x3D, 0xE2, 0x82] : List UInt8).getLast? ≠ some 0x0D := by decide
  have ha : parseOctets [0x41, 0x3D, 0xE2, 0x82] = (∅ : Values).insert "A" "\ufffd" :=
    @parseOctets_of_decode _ "A".toList "\ufffd".toList "\ufffd".toList (by decide) (by decide)
      (by decide) (by decide) (by decide)
  have ha' : parseOctets [0x41, 0x3D, 0x31] = (∅ : Values).insert "A" "1" :=
    @parseOctets_of_decode _ "A".toList "1".toList "1".toList (by decide) (by decide) (by decide)
      (by decide) (by decide)
  have hb : parseOctets [0x42, 0x3D, 0x31] = (∅ : Values).insert "B" "1" :=
    @parseOctets_of_decode _ "B".toList "1".toList "1".toList (by decide) (by decide) (by decide)
      (by decide) (by decide)
  have hkey : "B" ∉ parseEnded [0x41, 0x3D, 0xE2, 0x82] := by
    rw [parseEnded_eq_parseOctets hlast, ha]
    simp
  have hkey' : "B" ∉ parseEnded [0x41, 0x3D, 0x31] := by
    rw [parseEnded_eq_parseOctets (by decide), ha']
    simp
  have hplain : (⟨["work".toList, ".env".toList]⟩ : Path).IsPlain := by
    rw [Path.IsPlain]
    decide
  constructor
  · obtain ⟨t, ht⟩ : ∃ t, (FileTree.ofDirectory ⟨["work".toList]⟩).write?
        ⟨["work".toList, ".env".toList]⟩ ([0x41, 0x3D, 0xE2, 0x82] ++ 0x0A :: [0x42, 0x3D, 0x31])
          = some t := ⟨_, rfl⟩
    obtain ⟨ta, hta⟩ : ∃ t, (FileTree.ofDirectory ⟨["work".toList]⟩).write?
        ⟨["work".toList, ".env".toList]⟩ [0x41, 0x3D, 0xE2, 0x82] = some t := ⟨_, rfl⟩
    obtain ⟨tb, htb⟩ : ∃ t, (FileTree.ofDirectory ⟨["work".toList]⟩).write?
        ⟨["work".toList, ".env".toList]⟩ [0x42, 0x3D, 0x31] = some t := ⟨_, rfl⟩
    have hta' := FileTree.stores_of_write? hta
    have htb' := FileTree.stores_of_write? htb
    have hsettings := settings_of_damaged_file.1 ta _ _ hplain hta'
    have hsettings' := settings_of_damaged_file.1 tb _ _ hplain htb'
    obtain ⟨values, later, hvalues, hlater, hboth⟩ := settings_of_damaged_file.2.2.1 t ta tb _ _ _
      hplain hlast (FileTree.stores_of_write? ht) hta' htb'
    have htext : String.ofList (⟨["work".toList, ".env".toList]⟩ : Path).text = "/work/.env" := by
      decide
    rw [htext, ha] at hsettings
    rw [htext, hb] at hsettings'
    rw [htext] at hvalues hlater hboth
    obtain rfl := (Settings.mk.inj (Except.ok.inj (hvalues.symm.trans hsettings))).2
    obtain rfl := (Settings.mk.inj (Except.ok.inj (hlater.symm.trans hsettings'))).2
    use t, ta, tb, ht, hta, htb, hsettings, hsettings'
  · use hlast, hkey, hkey'
    apply settings_of_damaged_file.2.2.2.2.2.2 _ _ _ _ _ hkey hkey'

end EnvFile

end Credentials
