import ChipEight.Listing.Columns

/-!
# Listings lose nothing

A listing has a line for every two bytes of the program, and for a last byte without a partner.
Each line shows its bytes and their address, so that the program can be read back from its listing.
Lines do not depend on what follows them, as long as words are not torn apart.
-/

namespace ChipEight.Listing

private theorem shows_head_linesFrom {address : Nat} {bytes : List UInt8} {line : String}
    (h : (linesFrom address bytes).head? = some line) : Shows line address (bytes.take 2) := by
  cases bytes with
  | nil => cases h
  | cons high bytes =>
    cases bytes with
    | nil =>
      cases h
      exact shows_byteLine address high
    | cons low rest =>
      cases h
      exact shows_wordLine address high low

private theorem shows_getElem?_linesFrom {address k : Nat} {bytes : List UInt8} {line : String}
    (h : (linesFrom address bytes)[k]? = some line) :
    Shows line (address + 2 * k) ((bytes.drop (2 * k)).take 2) := by
  apply shows_head_linesFrom
  rw [← drop_linesFrom, List.head?_drop, h]

private theorem toRom?_cons {line : String} {shown : List UInt8} (h : bytes? line = some shown)
    (lines : List String) : toRom? (line :: lines) = (toRom? lines).map (shown ++ ·) := by
  rw [toRom?, toRom?, List.mapM_cons, h]
  change ((lines.mapM bytes?).bind _).map _ = _
  cases lines.mapM bytes? <;> rfl

/-- Bytes are read back from their lines. -/
theorem toRom?_linesFrom (address : Nat) (bytes : List UInt8) :
    toRom? (linesFrom address bytes) = some bytes := by
  induction address, bytes using linesFrom.induct with
  | case1 => rfl
  | case2 address b => exact toRom?_cons (shows_byteLine address b).contents []
  | case3 address high low rest ih =>
    rw [linesFrom, toRom?_cons (shows_wordLine address high low).contents, ih]
    rfl

/-- A listing loses nothing. It has a line for every two bytes, rounded up; each line shows the
bytes at its place, with the directive for a single byte in the last line of a program of odd length
and nowhere else; the program is read back from its listing, so no other program has the same; and
whatever is appended to whole words does not change their lines. -/
theorem ofRom_lossless (rom : List UInt8) :
    (ofRom rom).length = (rom.length + 1) / 2 ∧
    (∀ k line, (ofRom rom)[k]? = some line →
      Shows line (0x200 + 2 * k) ((rom.drop (2 * k)).take 2) ∧
        (showsByte line = true ↔ k + 1 = (ofRom rom).length ∧ rom.length % 2 = 1)) ∧
    toRom? (ofRom rom) = some rom ∧
    (∀ other, ofRom other = ofRom rom → other = rom) ∧
    (rom.length % 2 = 0 → ∀ more, ofRom rom <+: ofRom (rom ++ more)) := by
  have hlength : (ofRom rom).length = (rom.length + 1) / 2 := length_linesFrom _ rom
  have hread (program : List UInt8) : toRom? (ofRom program) = some program :=
    toRom?_linesFrom _ program
  refine ⟨hlength, ?_, hread rom, ?_, ?_⟩
  · intro k line hk
    have hshows := shows_getElem?_linesFrom hk
    have hlt : k < (ofRom rom).length := (List.getElem?_eq_some_iff.mp hk).1
    refine ⟨hshows, hshows.entry.trans ?_⟩
    rw [List.length_take, List.length_drop]
    omega
  · intro other h
    have hsame : some other = some rom := by rw [← hread other, h, hread rom]
    exact Option.some.inj hsame
  · intro heven more
    rw [ofRom, ofRom, linesFrom_append _ heven]
    exact List.prefix_append _ _

end ChipEight.Listing
