import IncludeTrace.Proofs.Graph.History
import IncludeTrace.Proofs.Path.Change
import IncludeTrace.Proofs.Path.Names

/-!
# Keys that are their own keys

Items are stored under keys, and a key may be looked up like any path. It is its own key just if it is
absolute (`Path.key_key_iff`), and then the item is found under it, whatever the current directory is.
Keys of rooted paths and of paths on a network share are absolute. The key of a path on a drive need not
be, because normal form knows no drives: `..` takes back the drive like any other segment, and where
nothing stands behind the drive its slash is dropped. `Path.StaysOnDrive` excludes both. Then the key is
on the drive of the path (`Path.drive?_key`), so that paths on different drives have different keys.

The current directory is to be plain (`Path.Plain`), since its backslashes become slashes only after its
normal form was taken. `Graph.canonical_keys` puts this together.
-/

namespace IncludeTrace

namespace Path

variable {cwd cwd' p q : Text}

/-! ### Keys of keys -/

@[simp]
theorem lower_key (cwd p : Text) : (key cwd p).lower = key cwd p := by
  rw [key]
  split <;> exact Text.lower_lower _

/-- Backslashes that the current directory has become slashes behind its normal form, and if it is plain,
what comes of it is still in normal form. -/
theorem normal_slashed_absolute (hcwd : Plain cwd) (p : Text) :
    normal (slashed (absolute cwd (slashed p))) = slashed (absolute cwd (slashed p)) := by
  have hp : ∀ w ∈ (slashed p).pieces '/', Clean w := fun w hw => clean_of_not_mem fun hmem =>
    backslash_not_mem_slashed p ((Text.of_mem_pieces hw).2 _ hmem)
  have hr := root_of_startsWith (startsWith_join hcwd.1 (slashed p))
  have hnames : ∀ v ∈ (segments (join cwd (slashed p))).flatMap parts, IsName v :=
    isName_of_mem_flatMap_parts (of_mem_segments_join hcwd hp)
  rw [absolute, slashed_normal (root_join_ne_nil hcwd.1 _)]
  exact normal_append_join hr hnames fun _ => slash_not_mem_of_mem_parts

/-- **A key is in normal form**, if the current directory is plain. -/
theorem normal_key (hcwd : Plain cwd) (p : Text) : normal (key cwd p) = key cwd p := by
  rw [key]
  split
  · rw [keepsShape_lower.normal_change, normal_normal]
  · rw [keepsShape_lower.normal_change, normal_slashed_absolute hcwd]

/-- **An absolute key is its own key**, in every current directory. -/
theorem key_key (hcwd : Plain cwd) (h : isAbsolute (key cwd p) = true) (cwd' : Text) :
    key cwd' (key cwd p) = key cwd p := by
  rw [key_of_isAbsolute cwd' (by rwa [slashed_key]), slashed_key, normal_key hcwd, lower_key]

theorem startsWith_lower_slashed (h : p.startsWith ['/'] = true) :
    (slashed p).lower.startsWith ['/'] = true := by
  obtain ⟨t, rfl⟩ := List.isPrefixOf_iff_prefix.mp h
  have hslashed : slashed (['/'] ++ t) = '/' :: slashed t := rfl
  rw [hslashed, keepsShape_lower.cons]
  rfl

/-- The key of a path that is not on a drive is rooted. -/
theorem startsWith_key (hcwd : cwd.startsWith ['/'] = true) (h : hasDrive (slashed p) = false) :
    (key cwd p).startsWith ['/'] = true := by
  rw [key]
  split
  · next hforeign =>
    rw [isForeign, h, Bool.false_or] at hforeign
    obtain ⟨t, ht⟩ := List.isPrefixOf_iff_prefix.mp hforeign
    have hrooted : (normal (slashed p)).startsWith ['/'] = true := startsWith_normal (ht ▸ rfl)
    have hslashed : slashed (normal (slashed p)) = normal (slashed p) :=
      slashed_of_not_mem (backslash_not_mem_normal (backslash_not_mem_slashed p))
    exact hslashed ▸ startsWith_lower_slashed hrooted
  · exact startsWith_lower_slashed (startsWith_normal (startsWith_join hcwd _))

theorem isAbsolute_of_startsWith (h : p.startsWith ['/'] = true) : isAbsolute p = true := by
  rw [isAbsolute, h, Bool.true_or]

theorem isAbsolute_of_hasDrive (h : hasDrive (slashed p) = true) : isAbsolute p = true := by
  rw [isAbsolute, isForeign, h, Bool.true_or, Bool.or_true]

/-- **A key is its own key just if it is absolute.** -/
theorem key_key_iff (hcwd : Plain cwd) (hcwd' : cwd'.startsWith ['/'] = true) :
    key cwd' (key cwd p) = key cwd p ↔ isAbsolute (key cwd p) = true := by
  refine ⟨fun h => ?_, fun h => key_key hcwd h cwd'⟩
  rw [← h]
  by_cases hdrive : hasDrive (slashed (key cwd p)) = true
  · exact isAbsolute_of_hasDrive (h.symm ▸ hdrive)
  · exact isAbsolute_of_startsWith (startsWith_key hcwd' (Bool.not_eq_true _ ▸ hdrive))

/-! ### Drives -/

/-- What holds of the letters of ASCII holds of those that name drives. -/
theorem of_isDriveLetter {P : Char → Prop}
    (h : ∀ n < 26, P (Char.ofNat (0x41 + n)) ∧ P (Char.ofNat (0x61 + n))) {c : Char}
    (hc : isDriveLetter c = true) : P c := by
  simp only [isDriveLetter, Bool.or_eq_true, Bool.and_eq_true, decide_eq_true_eq] at hc
  rcases hc with ⟨hfirst, hlast⟩ | ⟨hfirst, hlast⟩
  · obtain ⟨n, hn⟩ := Nat.exists_eq_add_of_le (show 0x41 ≤ c.toNat from hfirst)
    have hle : c.toNat ≤ 0x5A := hlast
    rw [← Char.ofNat_toNat c, hn]
    exact (h n (by omega)).1
  · obtain ⟨n, hn⟩ := Nat.exists_eq_add_of_le (show 0x61 ≤ c.toNat from hfirst)
    have hle : c.toNat ≤ 0x7A := hlast
    rw [← Char.ofNat_toNat c, hn]
    exact (h n (by omega)).2

/-- The letter of the drive that a path is on, in lower case. -/
def drive? (p : Text) : Option Char :=
  if hasDrive (slashed p) then p.head?.map Char.toLower else none

/-- What is left of the segments behind a drive, innermost first. -/
def onDrive (p : Text) : List Text := settle false (Text.pieces '/' ((slashed p).drop 3))

/-- A path **stays on its drive**, if it is on one, when something is left behind the drive and no `..`
leads out of it. -/
def StaysOnDrive (p : Text) : Prop :=
  hasDrive (slashed p) = true → onDrive p ≠ [] ∧ (onDrive p).getLast? ≠ some ['.', '.']

instance : DecidablePred StaysOnDrive := fun p => inferInstanceAs
  (Decidable (hasDrive (slashed p) = true → onDrive p ≠ [] ∧ (onDrive p).getLast? ≠ some ['.', '.']))

/-- A path on a drive begins with its letter, a colon and a slash. -/
theorem exists_of_hasDrive (h : hasDrive p = true) :
    ∃ c rest, p = c :: ':' :: '/' :: rest ∧ isDriveLetter c = true := by
  rw [hasDrive.eq_def] at h
  split at h
  · exact ⟨_, _, rfl, h⟩
  · cases h

/-- What is left behind a drive that a path stays on are names. -/
theorem isName_of_mem_onDrive (h : (onDrive p).getLast? ≠ some ['.', '.']) :
    ∀ w ∈ onDrive p, IsName w := by
  obtain ⟨names, n, hkept, hnames, -⟩ := stacked_settle false (Text.pieces '/' ((slashed p).drop 3))
  have hleft : onDrive p = names ++ List.replicate n ['.', '.'] := hkept
  rw [hleft] at h ⊢
  cases n with
  | zero => simpa using hnames
  | succ n =>
    rw [List.replicate_succ', ← List.append_assoc, List.getLast?_concat] at h
    exact absurd rfl h

/-- The pieces of a path that stays on its drive are kept behind others as the drive and what is left behind
it. -/
theorem foldl_pieces_of_staysOnDrive {c : Char} {rest : Text}
    (hp : slashed p = c :: ':' :: '/' :: rest) (hc : isDriveLetter c = true) (h : StaysOnDrive p)
    (rooted : Bool) (before : List Text) :
    ((slashed p).pieces '/').foldl (addSegment rooted) before = onDrive p ++ [c, ':'] :: before := by
  have hnames := isName_of_mem_onDrive (h (by rw [hp]; exact hc)).2
  have hletter : c ≠ '/' := of_isDriveLetter (P := (· ≠ '/')) (by decide) hc
  have hdrive : IsName [c, ':'] := by simp [IsName]
  have hwhole : '/' ∉ [c, ':'] := by simp [hletter.symm]
  have hpieces : (slashed p).pieces '/' = [c, ':'] :: Text.pieces '/' ((slashed p).drop 3) := by
    rw [hp]
    exact (Text.pieces_append_cons [c, ':'] rest).trans (by rw [Text.pieces_of_not_mem hwhole]; rfl)
  rw [hpieces, List.foldl_cons, addSegment_of_isName hdrive, foldl_settle, ← onDrive,
    foldl_of_isName fun w hw => hnames w (List.mem_reverse.mp hw), List.reverse_reverse]

/-- A path on a drive is not rooted. -/
theorem root_of_hasDrive (h : hasDrive p = true) : root p = [] := by
  rw [root_eq_nil_iff, Bool.eq_false_iff]
  intro hrooted
  cases (hasDrive_of_startsWith hrooted).symm.trans h

/-- The segments of a path that stays on its drive are the drive and what is left behind it. -/
theorem segments_of_staysOnDrive {c : Char} {rest : Text} (hp : slashed p = c :: ':' :: '/' :: rest)
    (hc : isDriveLetter c = true) (h : StaysOnDrive p) :
    segments (slashed p) = [c, ':'] :: (onDrive p).reverse := by
  have hroot : root (slashed p) = [] := root_of_hasDrive (by rw [hp]; exact hc)
  rw [segments_eq, hroot, settle, foldl_pieces_of_staysOnDrive hp hc h, List.reverse_append]
  rfl

/-- The normal form of a path that stays on its drive has the drive and what is left behind it. -/
theorem normal_of_staysOnDrive {c : Char} {rest : Text} (hp : slashed p = c :: ':' :: '/' :: rest)
    (hc : isDriveLetter c = true) (h : StaysOnDrive p) :
    normal (slashed p) = [c, ':'] ++ '/' :: Text.join ['/'] (onDrive p).reverse := by
  have hdrive : hasDrive (slashed p) = true := by rw [hp]; exact hc
  have hne := (h hdrive).1
  rw [normal, root_of_hasDrive hdrive, segments_of_staysOnDrive hp hc h,
    Text.join_cons_of_ne_nil (by simpa using hne)]
  simp

/-- The key of a path that stays on its drive is on a drive, with the same letter in lower case. -/
theorem key_of_staysOnDrive (cwd : Text) (hdrive : hasDrive (slashed p) = true) (h : StaysOnDrive p) :
    hasDrive (key cwd p) = true ∧ ∃ c, p.head? = some c ∧ (key cwd p).head? = some c.toLower ∧
      c.toLower.toLower = c.toLower := by
  obtain ⟨c, rest, hp, hc⟩ := exists_of_hasDrive hdrive
  have hletter : c.toLower.toLower = c.toLower ∧ isDriveLetter c.toLower = true ∧
      c ≠ '/' ∧ Text.lower [c, ':'] = [c.toLower, ':'] :=
    of_isDriveLetter (P := fun c => c.toLower.toLower = c.toLower ∧ isDriveLetter c.toLower = true ∧
      c ≠ '/' ∧ Text.lower [c, ':'] = [c.toLower, ':']) (by decide +kernel) hc
  obtain ⟨hlower, hdriveLetter, hslash, hmade⟩ := hletter
  have hhead : p.head? = some c := by
    cases p with
    | nil => cases hp
    | cons d t =>
      have hd : (if d = '\\' then '/' else d) = c := (List.cons.inj hp).1
      split at hd
      · exact absurd hd.symm hslash
      · rw [hd, List.head?_cons]
  have hforeign : isForeign p = true := by rw [isForeign, hdrive, Bool.true_or]
  have hkey : key cwd p = [c.toLower, ':'] ++ '/' :: (Text.join ['/'] (onDrive p).reverse).lower := by
    rw [key, if_pos hforeign, normal_of_staysOnDrive hp hc h, Text.lower_append_cons divides_slash,
      hmade]
  rw [hkey]
  exact ⟨hdriveLetter, c, hhead, rfl, hlower⟩

/-- **A path that stays on its drive has a key on the same drive.** -/
theorem drive?_key (hcwd : cwd.startsWith ['/'] = true) (h : StaysOnDrive p) :
    drive? (key cwd p) = drive? p := by
  rw [drive?, drive?, slashed_key]
  by_cases hdrive : hasDrive (slashed p) = true
  · obtain ⟨hkey, c, hhead, hkeyHead, hlower⟩ := key_of_staysOnDrive cwd hdrive h
    rw [if_pos hkey, if_pos hdrive, hhead, hkeyHead, Option.map_some, Option.map_some, hlower]
  · rw [Bool.not_eq_true] at hdrive
    rw [hasDrive_of_startsWith (startsWith_key hcwd hdrive), hdrive]
    rfl

/-- The key of a path that stays on its drive is absolute. -/
theorem isAbsolute_key (hcwd : cwd.startsWith ['/'] = true) (h : StaysOnDrive p) :
    isAbsolute (key cwd p) = true := by
  by_cases hdrive : hasDrive (slashed p) = true
  · exact isAbsolute_of_hasDrive (by rw [slashed_key, (key_of_staysOnDrive cwd hdrive h).1])
  · exact isAbsolute_of_startsWith (startsWith_key hcwd (Bool.not_eq_true _ ▸ hdrive))

end Path

/-! ### Items under their keys -/

namespace Graph

variable {ops : List Operation} {g : Graph} {P : Text → Text → Prop}

/-- Every operation in a history names its files **by** paths that are in the relation `P` to its current
directory. -/
def NamesBy (P : Text → Text → Prop) (ops : List Operation) : Prop :=
  ∀ before op after g₀, ops = before ++ op :: after → Reached before g₀ →
    ∀ p ∈ op.named g₀, P op.cwd p

/-- The key of an item is that of a path that was named. -/
theorem Reached.exists_named (h : Reached ops g) (hops : NamesBy P ops) {i : Item} (hi : i ∈ g.items) :
    ∃ cwd p, P cwd p ∧ i.key = Path.key cwd p := by
  obtain ⟨before, op, after, g₀, p, hsplit, hreached, -, hfirst, hkey, -⟩ :=
    h.createdIn (find?_key_of_mem h.wellFormed.nodup hi)
  exact ⟨op.cwd, p, hops before op after g₀ hsplit hreached p (List.mem_of_find?_eq_some hfirst), hkey⟩

/-- An item is found under its key just if this is its own key. -/
theorem Reached.item?_key_iff (h : Reached ops g) {i : Item} (hi : i ∈ g.items) (cwd : Text) :
    g.item? cwd i.key = some i ↔ Path.key cwd i.key = i.key := by
  refine ⟨fun hfound => (key_of_find? hfound).symm, fun hkey => ?_⟩
  rw [item?, hkey]
  exact find?_key_of_mem h.wellFormed.nodup hi

/-- **Keys are canonical, where paths stay on their drives.**

In a plain current directory, the key of a path that stays on its drive is absolute and its own key, in
every current directory; and paths on different drives that stay there have different keys. Other keys
are their own just if they are absolute. So the items of a reached graph are found under their keys, if
all files were named in plain current directories and by paths that stay on their drives; and otherwise
those with absolute keys are found. -/
theorem canonical_keys (cwd p : Text) (hcwd : Path.Plain cwd) :
    (Path.StaysOnDrive p → Path.isAbsolute (Path.key cwd p) = true ∧
      ∀ cwd', Path.key cwd' (Path.key cwd p) = Path.key cwd p) ∧
    (∀ cwd' q : Text, cwd'.startsWith ['/'] = true → Path.StaysOnDrive p → Path.StaysOnDrive q →
      Path.drive? p ≠ Path.drive? q → Path.key cwd p ≠ Path.key cwd' q) ∧
    (∀ cwd' : Text, cwd'.startsWith ['/'] = true →
      (Path.key cwd' (Path.key cwd p) = Path.key cwd p ↔ Path.isAbsolute (Path.key cwd p) = true)) ∧
    ∀ ops g, Reached ops g →
      (NamesBy (fun cwd₀ q => Path.Plain cwd₀ ∧ Path.StaysOnDrive q) ops →
        ∀ i ∈ g.items, ∀ cwd', g.item? cwd' i.key = some i) ∧
      (NamesBy (fun cwd₀ _ => Path.Plain cwd₀) ops →
        ∀ i ∈ g.items, ∀ cwd' : Text, cwd'.startsWith ['/'] = true →
          (g.item? cwd' i.key = some i ↔ Path.isAbsolute i.key = true)) := by
  refine ⟨fun hp => ?_, fun cwd' q hcwd' hp hq hne heq => ?_,
    fun cwd' hcwd' => Path.key_key_iff hcwd hcwd', fun ops g h => ⟨?_, ?_⟩⟩
  · have habsolute := Path.isAbsolute_key hcwd.1 hp
    exact ⟨habsolute, Path.key_key hcwd habsolute⟩
  · rw [← Path.drive?_key hcwd.1 hp, ← Path.drive?_key hcwd' hq, heq] at hne
    exact hne rfl
  · intro hops i hi cwd'
    obtain ⟨cwd₀, q, ⟨hcwd₀, hq⟩, hkey⟩ := h.exists_named hops hi
    rw [h.item?_key_iff hi, hkey, Path.key_key hcwd₀ (Path.isAbsolute_key hcwd₀.1 hq)]
  · intro hops i hi cwd' hcwd'
    obtain ⟨cwd₀, q, hcwd₀, hkey⟩ := h.exists_named hops hi
    rw [h.item?_key_iff hi, hkey, Path.key_key_iff hcwd₀ hcwd']

/-- Two files that stay where they are named, and one that leaves its drive. -/
theorem canonical_keys_mixed :
    let view : FileView := ⟨"/Work".toList, fun _ => false⟩
    let p : Text := "C:\\Src\\..\\A.h".toList
    let q : Text := "Lib\\B.h".toList
    let out : Text := "D:\\..\\a.h".toList
    (Path.isAbsolute (Path.key view.cwd p) = true ∧
        Path.key ['/'] (Path.key view.cwd p) = Path.key view.cwd p) ∧
      Path.key view.cwd p ≠ Path.key ['/'] "D:/A.h".toList ∧
      Path.key ['/'] (Path.key view.cwd out) ≠ Path.key view.cwd out ∧
      (∃ g, Reached [.create view p, .create view q] g ∧ ∃ i ∈ g.items,
        i.key = "/work/lib/b.h".toList ∧ g.item? ['/'] i.key = some i) ∧
      ∃ g, Reached [.create view p, .create view out] g ∧ ∃ i ∈ g.items,
        i.key = "a.h".toList ∧ g.item? ['/'] i.key ≠ some i := by
  intro view p q out
  have hplain : Path.Plain view.cwd := by decide +kernel
  obtain ⟨hown, hdrives, -, hitems⟩ := canonical_keys view.cwd p hplain
  obtain ⟨-, -, hexact, -⟩ := canonical_keys view.cwd out hplain
  have hreached : ∀ r, Reached [.create view p, .create view r] _ := fun r =>
    (Reached.nil.snoc (.create view p) trivial).snoc (.create view r) trivial
  have hnames : ∀ r (P : Text → Text → Prop), P view.cwd p → P view.cwd r →
      NamesBy P [.create view p, .create view r] := by
    intro r P hp hr before op after g₀ hops _
    have hop : op ∈ [Operation.create view p, .create view r] := hops ▸ by simp
    rcases List.mem_pair.mp hop with rfl | rfl
    · exact List.forall_mem_singleton.mpr hp
    · exact List.forall_mem_singleton.mpr hr
  obtain ⟨habsolute, hkey⟩ := hown (by decide +kernel)
  refine ⟨⟨habsolute, hkey ['/']⟩, hdrives ['/'] _ (by decide) (by decide +kernel) (by decide +kernel)
    (by decide +kernel), fun hsame => ?_, ?_, ?_⟩
  · exact absurd ((hexact ['/'] (by decide)).mp hsame) (by decide +kernel)
  · refine ⟨_, hreached q, ⟨"/work/lib/b.h".toList, "/Work/Lib\\B.h".toList, []⟩, by decide +kernel,
      rfl, ?_⟩
    exact (hitems _ _ (hreached q)).1 (hnames q _ ⟨hplain, by decide +kernel⟩
      ⟨hplain, by decide +kernel⟩) _ (by decide +kernel) ['/']
  · refine ⟨_, hreached out, ⟨"a.h".toList, "D:\\..\\a.h".toList, []⟩, by decide +kernel, rfl,
      fun hfound => ?_⟩
    exact absurd (((hitems _ _ (hreached out)).2 (hnames out _ hplain hplain) _ (by decide +kernel) ['/']
      (by decide)).mp hfound) (by decide +kernel)

/-- **A `..` leads out of the drive** that a path is on. What is left is not absolute, names another file
when it is looked up, and is the same for different drives. -/
theorem key_leaves_drive :
    let view : FileView := ⟨"/work".toList, fun _ => false⟩
    let p : Text := "C:\\..\\a.h".toList
    let q : Text := "D:\\..\\a.h".toList
    Path.key view.cwd p = "a.h".toList ∧ Path.isAbsolute (Path.key view.cwd p) = false ∧
      Path.key view.cwd (Path.key view.cwd p) = "/work/a.h".toList ∧
      Path.drive? p ≠ Path.drive? q ∧ Path.key view.cwd p = Path.key view.cwd q ∧
      ∃ g, Reached [.create view p] g ∧ ∃ i ∈ g.items, g.item? view.cwd i.key = none := by
  intro view p q
  refine ⟨by decide +kernel, by decide +kernel, by decide +kernel, by decide +kernel,
    by decide +kernel, _, Reached.nil.snoc (.create view p) trivial, ⟨"a.h".toList, p, []⟩, ?_, ?_⟩
  all_goals decide +kernel

end Graph

end IncludeTrace
