import RepairLedger.Json.Text

/-!
# The writer

Text is written piece by piece.  The one who writes it keeps track of two things: how deep the
brackets are nested, and whether the value that is being written has a part yet, since a closing
bracket stands on a line of its own only behind a part (`Writer`).  Each bracket and each part
inside of a value changes both.

Still the text that a value gets depends on nothing but the value and the level at which it stands,
and behind it the writer is at that level again: `Writer.At.value`.  So a value that is written from
the beginning gets the text `Value.text` (`Writer.text_value`).
-/

namespace RepairLedger.Json

/-- What has been written, and what the writer keeps track of. -/
structure Writer where
  layout : Layout
  written : List Char
  /-- The number of open brackets. -/
  level : Nat
  /-- Has a part been ended since the last opening bracket? -/
  hasPart : Bool

namespace Writer

/-- Nothing has been written. -/
def start (layout : Layout) : Writer :=
  ⟨layout, [], 0, false⟩

/-- Writes some characters. -/
def put (w : Writer) (cs : List Char) : Writer :=
  { w with written := w.written ++ cs }

/-- Begins a line, in a layout that has lines. -/
def line (w : Writer) : Writer :=
  w.put (w.layout.lineStart w.level)

/-- Writes what stands between a name and its value. -/
def colon (w : Writer) : Writer :=
  w.put w.layout.colon

/-- Opens a bracket. -/
def opening (w : Writer) (bracket : Char) : Writer :=
  { w.put [bracket] with level := w.level + 1, hasPart := false }

/-- Closes a bracket, on a line of its own if there is a part before it. -/
def closing (w : Writer) (bracket : Char) : Writer :=
  let outer := { w with level := w.level - 1 }
  (if w.hasPart then outer.line else outer).put [bracket]

/-- Begins a part, behind a comma unless it is the first one. -/
def beginPart (w : Writer) (first : Bool) : Writer :=
  (if first then w else w.put [',']).line

/-- Ends a part. -/
def endPart (w : Writer) : Writer :=
  { w with hasPart := true }

mutual

/-- Writes a value. -/
def value (w : Writer) : Value → Writer
  | .null => w.put ['n', 'u', 'l', 'l']
  | .bool true => w.put ['t', 'r', 'u', 'e']
  | .bool false => w.put ['f', 'a', 'l', 's', 'e']
  | .number n => w.put n.chars
  | .string s => w.put (stringChars s)
  | .array vs => ((w.opening '[').items true vs).closing ']'
  | .object members => ((w.opening '\x7b').members true members).closing '\x7d'

/-- Writes items. -/
def items (w : Writer) (first : Bool) : List Value → Writer
  | [] => w
  | v :: vs => ((w.beginPart first).value v).endPart.items false vs

/-- Writes members. -/
def members (w : Writer) (first : Bool) : List (String × Value) → Writer
  | [] => w
  | (name, v) :: rest =>
    (((w.beginPart first).put (stringChars name)).colon.value v).endPart.members false rest

end

/-! ### What has been written -/

/-- The writer is at a level, and this is what has been written. -/
structure At (w : Writer) (layout : Layout) (level : Nat) (cs : List Char) : Prop where
  layout : w.layout = layout
  level : w.level = level
  written : w.written = cs

namespace At

variable {w : Writer} {layout : Layout} {level : Nat} {cs : List Char}

theorem put (h : w.At layout level cs) (ds : List Char) : (w.put ds).At layout level (cs ++ ds) :=
  ⟨h.layout, h.level, congrArg (· ++ ds) h.written⟩

theorem line (h : w.At layout level cs) :
    w.line.At layout level (cs ++ layout.lineStart level) := by
  rw [Writer.line, h.layout, h.level]
  exact h.put (layout.lineStart level)

theorem opening (h : w.At layout level cs) (bracket : Char) :
    (w.opening bracket).At layout (level + 1) (cs ++ [bracket]) :=
  ⟨h.layout, congrArg (· + 1) h.level, congrArg (· ++ [bracket]) h.written⟩

/-- Behind a part the closing bracket stands on a line of its own. -/
theorem closing (h : w.At layout (level + 1) cs) (hpart : w.hasPart = true) (bracket : Char) :
    (w.closing bracket).At layout level (cs ++ layout.lineStart level ++ [bracket]) := by
  have houter : ({ w with level := w.level - 1 } : Writer).At layout level cs :=
    ⟨h.layout, by rw [h.level, Nat.add_sub_cancel], h.written⟩
  rw [Writer.closing, if_pos hpart]
  exact houter.line.put [bracket]

/-- Without a part it stands behind the opening one. -/
theorem closing_opening (h : w.At layout level cs) (bracket bracket' : Char) :
    ((w.opening bracket).closing bracket').At layout level (cs ++ [bracket, bracket']) := by
  rw [List.append_cons]
  exact ⟨h.layout, h.level, congrArg (· ++ [bracket] ++ [bracket']) h.written⟩

theorem beginPart (h : w.At layout level cs) (first : Bool) :
    (w.beginPart first).At layout level
      (cs ++ (if first then [] else [',']) ++ layout.lineStart level) := by
  cases first
  · exact (h.put [',']).line
  · rw [if_pos rfl, List.append_nil]
    exact h.line

theorem colon (h : w.At layout level cs) :
    w.colon.At layout level (cs ++ layout.colon) := by
  rw [Writer.colon, h.layout]
  exact h.put layout.colon

theorem endPart (h : w.At layout level cs) : w.endPart.At layout level cs :=
  ⟨h.layout, h.level, h.written⟩

end At

theorem hasPart_items : ∀ (vs : List Value) {w : Writer} {first : Bool}, w.hasPart = true →
    (w.items first vs).hasPart = true
  | [], _, _, h => h
  | _ :: vs, _, _, _ => hasPart_items vs rfl

theorem hasPart_members : ∀ (ms : List (String × Value)) {w : Writer} {first : Bool},
    w.hasPart = true → (w.members first ms).hasPart = true
  | [], _, _, h => h
  | _ :: ms, _, _, _ => hasPart_members ms rfl

mutual

/-- **A value gets the text of its level, and behind it the writer is at that level again.** -/
theorem At.value {layout : Layout} : ∀ (v : Value) {w : Writer} {level : Nat} {cs : List Char},
    w.At layout level cs → (w.value v).At layout level (cs ++ v.chars layout level)
  | .null, _, _, _, h => h.put _
  | .bool true, _, _, _, h => h.put _
  | .bool false, _, _, _, h => h.put _
  | .number _, _, _, _, h => h.put _
  | .string _, _, _, _, h => h.put _
  | .array [], _, _, _, h => h.closing_opening '[' ']'
  | .array (v :: vs), _, _, _, h => by
    have hfirst := ((h.opening '[').beginPart true).value v
    have hitems := hfirst.endPart.items vs
    simpa [Writer.value, Writer.items, Value.chars] using hitems.closing (hasPart_items vs rfl) ']'
  | .object [], _, _, _, h => h.closing_opening '\x7b' '\x7d'
  | .object ((name, v) :: rest), _, _, _, h => by
    have hname := ((h.opening '\x7b').beginPart true).put (stringChars name)
    have hmembers := (hname.colon.value v).endPart.members rest
    simpa [Writer.value, Writer.members, Value.chars] using
      hmembers.closing (hasPart_members rest rfl) '\x7d'

theorem At.items {layout : Layout} : ∀ (vs : List Value) {w : Writer} {level : Nat}
    {cs : List Char}, w.At layout level cs →
      (w.items false vs).At layout level (cs ++ itemsChars layout level vs)
  | [], _, _, cs, h => by rwa [itemsChars, List.append_nil]
  | v :: vs, _, _, _, h => by
    have hitem := ((h.beginPart false).value v).endPart
    simpa [Writer.items, itemsChars] using hitem.items vs

theorem At.members {layout : Layout} : ∀ (ms : List (String × Value)) {w : Writer} {level : Nat}
    {cs : List Char}, w.At layout level cs →
      (w.members false ms).At layout level (cs ++ membersChars layout level ms)
  | [], _, _, cs, h => by rwa [membersChars, List.append_nil]
  | (name, v) :: rest, _, _, _, h => by
    have hname := (h.beginPart false).put (stringChars name)
    have hmember := (hname.colon.value v).endPart
    simpa [Writer.members, membersChars] using hmember.members rest

end

/-- **What is written for a value from the beginning is its text.** -/
theorem text_value (layout : Layout) (v : Value) :
    String.ofList ((start layout).value v).written = v.text layout := by
  have h : (start layout).At layout 0 [] := ⟨rfl, rfl, rfl⟩
  rw [(h.value v).written, List.nil_append, Value.text]

end Writer

end RepairLedger.Json
