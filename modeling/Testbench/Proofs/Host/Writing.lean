import Testbench.Proofs.Host.Tree

/-!
# Writing in trees

Writing a file puts it at the destination of its path, makes the directories that lead there, and
leaves whatever was in the tree elsewhere.  Links stay what they are unless a file takes their
place.  Hence a text is read as before unless its path leads, by itself or through links, to the
destination of a path that is written.
-/

namespace Testbench.Tree

variable {t t' : Tree} {here place other next : Location} {names : List Text} {p q name c : Text}
  {files : List (Text × Text)} {n : Node} {limit : Nat}

/-! ### Making directories -/

/-- A tree extends another one when it has whatever is in the other one. -/
def Extends (t' t : Tree) : Prop := ∀ place n, t.node? place = some n → t'.node? place = some n

theorem extends_of_makeDirectory (h : t.makeDirectory place = .ok t') :
  t'.Extends t ∧ t'.node? place = some .directory
  := by
  rw [makeDirectory] at h
  split at h
  · next found =>
    obtain rfl := Except.ok.inj h
    exact ⟨fun _ _ stays => stays, found⟩
  · simp at h
  · next free =>
    obtain rfl := Except.ok.inj h
    have ne : place ≠ [] := by
      rintro rfl
      simp [node?] at free
    refine ⟨?_, node?_put_self t ne _⟩
    intro other n found
    rw [node?_put_of_ne t _ _, found]
    rintro rfl
    simp [free] at found

/-- Directories are made wherever names lead, and all else stays. -/
theorem extends_of_makeDirectories (h : t.makeDirectories place names = .ok (t', other)) :
  t'.Extends t ∧ other = lead place names ∧
    (t.node? place = some .directory → t'.Through place names)
  := by
  induction names generalizing t place with
  | nil =>
    obtain ⟨rfl, rfl⟩ : t = t' ∧ place = other := by simpa [makeDirectories] using h
    exact ⟨fun _ _ stays => stays, rfl, id⟩
  | cons name names ih =>
    obtain ⟨middle, made, further⟩ := bind_eq_ok.1 h
    obtain ⟨first, directory⟩ := extends_of_makeDirectory made
    obtain ⟨second, ends, through⟩ := ih further
    refine ⟨fun place n found => second place n (first place n found), ends, ?_⟩
    intro found
    exact ⟨second _ _ (first _ _ found), through directory⟩

/-! ### Writing files -/

/-- Directories stay when something is put where there is none. -/
theorem directory_put (free : t.node? place ≠ some .directory) (n : Node)
    (found : t.node? other = some .directory) :
  (t.put place n).node? other = some .directory
  := by
  rw [node?_put_of_ne, found]
  rintro rfl
  exact free found

/-- What is in a tree after a file has been written. -/
structure Written (t t' : Tree) (here : Location) (p c : Text) : Prop where
  named : ∃ name, Path.fileName? p = some name
  target : t'.node? (destination here p) = some (.file (some c))
  others : ∀ place n, place ≠ destination here p → t.node? place = some n →
    t'.node? place = some n
  directories : ∀ place, t.node? place = some .directory → t'.node? place = some .directory
  through : t.node? (start here p) = some .directory →
    t'.Through (start here p) (Path.parts p).dropLast

theorem written_of_write (h : t.write here p c = .ok t') :
  Written t t' here p c
  := by
  obtain ⟨⟨middle, place⟩, made, h⟩ := bind_eq_ok.1 h
  obtain ⟨kept, ends, through⟩ := extends_of_makeDirectories made
  have begins : start here (Path.directory p) = start here p := by
    rw [start, start, Path.isAbsolute_directory]
  rw [begins] at ends through
  simp only at h
  split at h
  · simp at h
  · next name named =>
    have target : destination here p = place ++ [name] := by
      rw [ends, ← lead_parts, Path.parts_directory]
      exact destination_of_fileName? named
    split at h
    · split at h
      · simp at h
      · next free =>
        obtain rfl := Except.ok.inj h
        rw [← target] at free ⊢
        constructor
        · exact ⟨name, named⟩
        · rw [node?_put_self _ (by simp [target])]
        · intro other n ne found
          rw [node?_put_of_ne _ ne, kept other n found]
        · exact fun other found => directory_put free _ (kept other _ found)
        · intro found
          rw [← Path.parts_directory]
          exact (through_parts.2 (through found)).mono fun other => directory_put free _
    · simp at h

namespace Written

/-- Whatever can be followed can be followed after a file has been written. -/
theorem reaches {there : Location} (h : Written t t' here p c) (hq : t.Reaches there q) :
  t'.Reaches there q
  := ⟨hq.1, hq.2.mono h.directories⟩

theorem locate {there : Location} (h : Written t t' here p c)
    (step : t.locate there q = .ok next) :
  t'.locate there q = .ok next
  := by
  obtain ⟨reaches, ends⟩ := locate_eq_ok_iff.1 step
  exact locate_eq_ok_iff.2 ⟨h.reaches reaches, ends⟩

/-- There is no link where a file has been written. -/
theorem isPlain_target (h : Written t t' here p c) :
  t'.IsPlain (destination here p)
  := isPlain_of_file h.target

/-- No link is made when a file is written. -/
theorem isPlain (h : Written t t' here p c) (plain : t.IsPlain place)
    (found : t.node? place = some n) :
  t'.IsPlain place
  := by
  by_cases there : place = destination here p
  · rw [there]
    exact h.isPlain_target
  · intro target link
    exact plain target (found.trans ((h.others _ _ there found).symm.trans link))

/-- The file that is written is found wherever links have led to its place. -/
theorem settles_of_leads (h : Written t t' here p c) (settles : t.Settles limit place other n)
    (leads : t.Leads place (destination here p)) :
  t'.Settles limit place (destination here p) (.file (some c))
  := by
  have target : ∀ limit, t'.Settles limit (destination here p) (destination here p)
      (.file (some c)) := fun _ => Settles.here h.isPlain_target h.target
  induction settles with
  | here plain found =>
    obtain rfl := plain.eq_of_leads leads
    exact target _
  | @link limit place next other n _ found step rest ih =>
    by_cases there : place = destination here p
    · subst there
      exact target _
    · apply Settles.link (h.others _ _ there found) (h.locate step)
      apply ih
      cases leads with
      | here => exact absurd rfl there
      | link found' step' further =>
        obtain rfl := Node.link.inj (Option.some.inj (found.symm.trans found'))
        obtain rfl := Except.ok.inj (step.symm.trans step')
        exact further

/-- What links lead to is found as before unless they lead to the file that is written. -/
theorem settles_of_not_leads (h : Written t t' here p c) (settles : t.Settles limit place other n)
    (away : ¬t.Leads place (destination here p)) :
  t'.Settles limit place other n
  := by
  have apart : ∀ {place}, ¬t.Leads place (destination here p) → place ≠ destination here p := by
    rintro place away rfl
    exact away (Leads.here _)
  induction settles with
  | here plain found =>
    exact Settles.here (h.isPlain plain found) (h.others _ _ (apart away) found)
  | link found step rest ih =>
    apply Settles.link (h.others _ _ (apart away) found) (h.locate step)
    exact ih fun leads => away (Leads.link found step leads)

/-- Where links have led to something they lead nowhere else after a file has been written. -/
theorem leads (h : Written t t' here p c) (settles : t.Settles limit place other n)
    (after : t'.Leads place next) :
  t.Leads place next
  := by
  induction settles with
  | here plain found =>
    obtain rfl := (h.isPlain plain found).eq_of_leads after
    exact Leads.here _
  | @link limit place _ other n _ found step rest ih =>
    by_cases there : place = destination here p
    · subst there
      obtain rfl := h.isPlain_target.eq_of_leads after
      exact Leads.here _
    · cases after with
      | here => exact Leads.here _
      | link found' step' further =>
        obtain rfl := Node.link.inj
          (Option.some.inj ((h.others _ _ there found).symm.trans found'))
        obtain rfl := Except.ok.inj ((h.locate step).symm.trans step')
        exact Leads.link found step (ih further)

/-- A text is replaced when a file is written to where its path leads. -/
theorem text_of_leads {a : Text} (h : Written t t' here p c) (read : t.text here q = .ok a)
    (leads : t.Leads (destination here q) (destination here p)) :
  t'.text here q = .ok c
  := by
  obtain ⟨reaches, place, settles⟩ := text_eq_ok_iff.1 read
  exact text_eq_ok_iff.2 ⟨h.reaches reaches, _, h.settles_of_leads settles leads⟩

/-- A text is read as before when a file is written to where its path does not lead. -/
theorem text_of_not_leads {a : Text} (h : Written t t' here p c) (read : t.text here q = .ok a)
    (away : ¬t.Leads (destination here q) (destination here p)) :
  t'.text here q = .ok a
  := by
  obtain ⟨reaches, place, settles⟩ := text_eq_ok_iff.1 read
  exact text_eq_ok_iff.2 ⟨h.reaches reaches, place, h.settles_of_not_leads settles away⟩

/-- A text that is read without following a link is replaced exactly by what is written to the
destination of its path. -/
theorem text_of_isPlain {a : Text} (h : Written t t' here p c)
    (plain : t.IsPlain (destination here q)) (read : t.text here q = .ok a) :
  t'.text here q = .ok (if destination here q = destination here p then c else a)
  := by
  split
  · next there =>
    apply h.text_of_leads read
    rw [there]
    exact Leads.here _
  · next apart => exact h.text_of_not_leads read fun leads => apart (plain.eq_of_leads leads)

end Written

/-! ### Writing several files -/

/-- The tree with files at paths, which are written one after the other. -/
def writeAll (t : Tree) (here : Location) : List (Text × Text) → Except Fault Tree
  | [] => .ok t
  | (p, c) :: r => do (← t.write here p c).writeAll here r

theorem writeAll_append (more : List (Text × Text)) :
  t.writeAll here (files ++ more) = (t.writeAll here files >>= fun t => t.writeAll here more)
  := by
  induction files generalizing t with
  | nil => rfl
  | cons x files ih =>
    rw [List.cons_append, writeAll, writeAll, bind_assoc]
    congr
    funext t
    exact ih

section

variable (h : t.writeAll here files = .ok t')
include h

/-- Writing files keeps the directories. -/
theorem directory_of_writeAll (found : t.node? place = some .directory) :
  t'.node? place = some .directory
  := by
  induction files generalizing t with
  | nil =>
    obtain rfl := Except.ok.inj h
    exact found
  | cons x files ih =>
    obtain ⟨middle, written, further⟩ := bind_eq_ok.1 h
    exact ih further ((written_of_write written).directories place found)

/-- What is at no destination of the files that are written stays. -/
theorem node?_of_writeAll_of_ne {n : Node}
    (other : ∀ x ∈ files, place ≠ destination here x.1) (found : t.node? place = some n) :
  t'.node? place = some n
  := by
  induction files generalizing t with
  | nil =>
    obtain rfl := Except.ok.inj h
    exact found
  | cons x files ih =>
    obtain ⟨middle, written, further⟩ := bind_eq_ok.1 h
    apply ih further fun y hy => other y (List.mem_cons_of_mem x hy)
    exact (written_of_write written).others place n (other x List.mem_cons_self) found

/-- Files that are written to different destinations are all there. -/
theorem node?_of_writeAll
    (distinct : files.Pairwise fun x y => destination here x.1 ≠ destination here y.1)
    {x : Text × Text} (hx : x ∈ files) :
  t'.node? (destination here x.1) = some (.file (some x.2))
  := by
  induction files generalizing t with
  | nil => simp at hx
  | cons y files ih =>
    obtain ⟨middle, written, further⟩ := bind_eq_ok.1 h
    obtain ⟨apart, distinct⟩ := List.pairwise_cons.1 distinct
    rcases List.mem_cons.1 hx with rfl | hx
    · exact node?_of_writeAll_of_ne further apart (written_of_write written).target
    · exact ih further distinct hx

/-- The directories on the path of a file that is written are there. -/
theorem through_of_writeAll {x : Text × Text} (hx : x ∈ files)
    (found : t.node? (start here x.1) = some .directory) :
  t'.Through (start here x.1) (Path.parts x.1).dropLast
  := by
  induction files generalizing t with
  | nil => simp at hx
  | cons y files ih =>
    obtain ⟨middle, written, further⟩ := bind_eq_ok.1 h
    have first := written_of_write written
    rcases List.mem_cons.1 hx with rfl | hx
    · exact (first.through found).mono fun _ => directory_of_writeAll further
    · exact ih further hx (first.directories _ found)

/-- A text is read as before if whatever is written to where its path leads is the same
text. -/
theorem text_of_writeAll {a : Text} (read : t.text here q = .ok a)
    (same : ∀ x ∈ files, t.Leads (destination here q) (destination here x.1) → x.2 = a) :
  t'.text here q = .ok a
  := by
  induction files generalizing t with
  | nil =>
    obtain rfl := Except.ok.inj h
    exact read
  | cons x files ih =>
    obtain ⟨middle, written, further⟩ := bind_eq_ok.1 h
    have first := written_of_write written
    have kept : middle.text here q = .ok a := by
      by_cases leads : t.Leads (destination here q) (destination here x.1)
      · rw [← same x List.mem_cons_self leads]
        exact first.text_of_leads read leads
      · exact first.text_of_not_leads read leads
    obtain ⟨-, place, settles⟩ := text_eq_ok_iff.1 read
    apply ih further kept
    exact fun y hy leads => same y (List.mem_cons_of_mem x hy) (first.leads settles leads)

end

end Testbench.Tree
