import YXTWebCpp.Scan.Basic

/-!
# The generated request automaton

`http11_parser.cpp` is generated from the grammar of `http11_parser.rl`: a program of labels and
jumps with one `case` per state.  This file is that program as data, label by label and state by
state:

* an `Action` is one of the actions of the grammar;
* a `Label` is one of the jump targets `trN` (the actions run there and the state they lead to) or
  `stN` (no actions);
* a `Row` is one `case` of the `switch`: the ranges of symbols it tests for, each with the label it
  jumps to.  A symbol in no range jumps to `st0`, the error state.

A symbol is the byte under the scan pointer.  The source reads it as a signed `char`; the ranges
here are those of the unsigned value, `128` to `255` standing for `-128` to `-1`.  The rows marked
`true` first compute `_widec`: the bytes `^`, `{` and `}` become the symbols 350, 379 and 381,
or 606, 635 and 637 when `parser->uri_relaxed` is set.
-/

namespace YXTWebCpp

namespace Http

/-- The actions of the grammar. -/
inductive Action where
  | mark | startField | writeField | startValue | writeValue | requestMethod | requestUri
  | fragment | startQuery | queryString | httpVersion | requestPath | done | xml | json
  deriving DecidableEq, Repr

/-- A jump target of the generated program. -/
structure Label where
  /-- The actions run on the way. -/
  acts : List Action
  /-- The state that is entered. -/
  next : ℕ
  deriving DecidableEq, Repr

/-- A `case` of the generated program. -/
structure Row where
  /-- The state. -/
  cs : ℕ
  /-- The row looks at `_widec` and not at the byte itself. -/
  wide : Bool
  /-- The symbols from the first to the second number jump to the label. -/
  ranges : List (ℕ × ℕ × Label)

/-- The jump targets without actions. -/
def st (n : ℕ) : Label := ⟨[], n⟩

def tr0 : Label := ⟨[.mark], 2⟩
def tr2 : Label := ⟨[.mark], 194⟩
def tr3 : Label := ⟨[.mark], 198⟩
def tr4 : Label := ⟨[.requestMethod], 3⟩
def tr6 : Label := ⟨[.mark, .requestPath, .requestUri], 4⟩
def tr7 : Label := ⟨[.mark], 19⟩
def tr8 : Label := ⟨[.mark, .requestPath, .requestUri], 20⟩
def tr9 : Label := ⟨[.mark], 24⟩
def tr10 : Label := ⟨[.mark], 33⟩
def tr11 : Label := ⟨[.mark, .requestPath], 29⟩
def tr12 : Label := ⟨[.mark], 173⟩
def tr13 : Label := ⟨[.mark], 5⟩
def tr21 : Label := ⟨[.httpVersion], 13⟩
def tr22 : Label := ⟨[.httpVersion], 17⟩
def tr23 : Label := ⟨[.startField], 14⟩
def tr24 : Label := ⟨[.startField, .done], 348⟩
def tr25 : Label := ⟨[.startField], 18⟩
def tr27 : Label := ⟨[.writeField], 15⟩
def tr28 : Label := ⟨[.startValue], 16⟩
def tr29 : Label := ⟨[.startValue], 15⟩
def tr30 : Label := ⟨[.startValue, .writeValue], 13⟩
def tr31 : Label := ⟨[.startValue, .writeValue], 17⟩
def tr33 : Label := ⟨[.writeValue], 13⟩
def tr34 : Label := ⟨[.writeValue], 17⟩
def tr36 : Label := ⟨[.done], 348⟩
def tr37 : Label := ⟨[.requestPath, .requestUri], 4⟩
def tr39 : Label := ⟨[.requestPath, .requestUri], 20⟩
def tr42 : Label := ⟨[.requestPath], 29⟩
def tr43 : Label := ⟨[.mark], 21⟩
def tr44 : Label := ⟨[.mark, .fragment], 4⟩
def tr45 : Label := ⟨[.mark], 22⟩
def tr47 : Label := ⟨[.fragment], 4⟩
def tr53 : Label := ⟨[.startQuery], 30⟩
def tr54 : Label := ⟨[.startQuery, .queryString, .requestUri], 4⟩
def tr55 : Label := ⟨[.startQuery, .queryString, .requestUri], 20⟩
def tr56 : Label := ⟨[.startQuery], 31⟩
def tr58 : Label := ⟨[.queryString, .requestUri], 4⟩
def tr59 : Label := ⟨[.queryString, .requestUri], 20⟩
def tr203 : Label := ⟨[.mark], 26⟩
def tr204 : Label := ⟨[.mark], 27⟩
def tr224 : Label := ⟨[.requestPath], 196⟩
def tr227 : Label := ⟨[.xml, .done], 349⟩
def tr228 : Label := ⟨[.requestPath], 199⟩
def tr232 : Label := ⟨[.mark], 200⟩
def tr235 : Label := ⟨[.json, .done], 349⟩

/-- States 1 to 50. -/
def states1 : List Row := [
  ⟨1, false, [(48, 57, tr0), (60, 60, tr2), (64, 64, tr3), (65, 90, tr0)]⟩,
  ⟨2, false, [(32, 32, tr4), (48, 57, st 175), (65, 90, st 175)]⟩,
  ⟨3, true, [(32, 32, tr6), (33, 33, tr7), (35, 35, tr8), (36, 36, tr7), (37, 37, tr9),
    (38, 46, tr7), (47, 47, tr10), (48, 57, tr7), (59, 59, tr7), (61, 61, tr7), (63, 63, tr11),
    (64, 64, tr7), (65, 90, tr12), (95, 95, tr7), (97, 122, tr12), (126, 126, tr7),
    (606, 606, tr7), (635, 635, tr7), (637, 637, tr7)]⟩,
  ⟨4, false, [(72, 72, tr13)]⟩,
  ⟨5, false, [(84, 84, st 6)]⟩,
  ⟨6, false, [(84, 84, st 7)]⟩,
  ⟨7, false, [(80, 80, st 8)]⟩,
  ⟨8, false, [(47, 47, st 9)]⟩,
  ⟨9, false, [(49, 49, st 10)]⟩,
  ⟨10, false, [(46, 46, st 11)]⟩,
  ⟨11, false, [(48, 49, st 12)]⟩,
  ⟨12, false, [(10, 10, tr21), (13, 13, tr22)]⟩,
  ⟨13, false, [(1, 8, tr23), (10, 10, tr24), (11, 12, tr23), (13, 13, tr25), (14, 31, tr23),
    (33, 33, tr23), (35, 39, tr23), (42, 43, tr23), (45, 46, tr23), (48, 57, tr23),
    (65, 90, tr23), (94, 122, tr23), (124, 124, tr23), (126, 126, tr23)]⟩,
  ⟨14, false, [(1, 8, st 14), (10, 31, st 14), (33, 33, st 14), (35, 39, st 14),
    (42, 43, st 14), (45, 46, st 14), (48, 57, st 14), (58, 58, tr27), (65, 90, st 14),
    (94, 122, st 14), (124, 124, st 14), (126, 126, st 14)]⟩,
  ⟨15, false, [(1, 8, tr28), (9, 9, tr29), (10, 10, tr30), (11, 12, tr28), (13, 13, tr31),
    (14, 31, tr28), (32, 32, tr29), (33, 126, tr28), (128, 255, tr28)]⟩,
  ⟨16, false, [(1, 9, st 16), (10, 10, tr33), (11, 12, st 16), (13, 13, tr34), (14, 126, st 16),
    (128, 255, st 16)]⟩,
  ⟨17, false, [(10, 10, st 13)]⟩,
  ⟨18, false, [(1, 8, st 14), (10, 10, tr36), (11, 31, st 14), (33, 33, st 14), (35, 39, st 14),
    (42, 43, st 14), (45, 46, st 14), (48, 57, st 14), (58, 58, tr27), (65, 90, st 14),
    (94, 122, st 14), (124, 124, st 14), (126, 126, st 14)]⟩,
  ⟨19, true, [(32, 32, tr37), (33, 33, st 19), (35, 35, tr39), (36, 36, st 19), (37, 37, st 24),
    (38, 46, st 19), (47, 47, st 26), (48, 57, st 19), (59, 59, st 19), (61, 61, st 19),
    (63, 63, tr42), (64, 90, st 19), (95, 95, st 19), (97, 122, st 19), (126, 126, st 19),
    (606, 606, st 19), (635, 635, st 19), (637, 637, st 19)]⟩,
  ⟨20, true, [(32, 32, tr44), (33, 33, tr43), (36, 36, tr43), (37, 37, tr45), (38, 59, tr43),
    (61, 61, tr43), (63, 90, tr43), (95, 95, tr43), (97, 122, tr43), (126, 126, tr43),
    (128, 255, tr43), (606, 606, tr43), (635, 635, tr43), (637, 637, tr43)]⟩,
  ⟨21, true, [(32, 32, tr47), (33, 33, st 21), (36, 36, st 21), (37, 37, st 22),
    (38, 59, st 21), (61, 61, st 21), (63, 90, st 21), (95, 95, st 21), (97, 122, st 21),
    (126, 126, st 21), (128, 255, st 21), (606, 606, st 21), (635, 635, st 21),
    (637, 637, st 21)]⟩,
  ⟨22, false, [(48, 57, st 23), (65, 70, st 23), (97, 102, st 23)]⟩,
  ⟨23, false, [(48, 57, st 21), (65, 70, st 21), (97, 102, st 21)]⟩,
  ⟨24, false, [(48, 57, st 25), (65, 70, st 25), (97, 102, st 25)]⟩,
  ⟨25, false, [(48, 57, st 19), (65, 70, st 19), (97, 102, st 19)]⟩,
  ⟨26, true, [(32, 32, tr37), (33, 33, st 26), (35, 35, tr39), (36, 36, st 26), (37, 37, st 27),
    (38, 59, st 26), (61, 61, st 26), (63, 63, tr42), (64, 90, st 26), (95, 95, st 26),
    (97, 122, st 26), (126, 126, st 26), (128, 255, st 26), (606, 606, st 26),
    (635, 635, st 26), (637, 637, st 26)]⟩,
  ⟨27, false, [(48, 57, st 28), (65, 70, st 28), (97, 102, st 28)]⟩,
  ⟨28, false, [(48, 57, st 26), (65, 70, st 26), (97, 102, st 26)]⟩,
  ⟨29, true, [(32, 32, tr54), (33, 33, tr53), (35, 35, tr55), (36, 36, tr53), (37, 37, tr56),
    (38, 59, tr53), (61, 61, tr53), (63, 90, tr53), (95, 95, tr53), (97, 122, tr53),
    (126, 126, tr53), (128, 255, tr53), (606, 606, tr53), (635, 635, tr53), (637, 637, tr53)]⟩,
  ⟨30, true, [(32, 32, tr58), (33, 33, st 30), (35, 35, tr59), (36, 36, st 30), (37, 37, st 31),
    (38, 59, st 30), (61, 61, st 30), (63, 90, st 30), (95, 95, st 30), (97, 122, st 30),
    (126, 126, st 30), (128, 255, st 30), (606, 606, st 30), (635, 635, st 30),
    (637, 637, st 30)]⟩,
  ⟨31, false, [(48, 57, st 32), (65, 70, st 32), (97, 102, st 32)]⟩,
  ⟨32, false, [(48, 57, st 30), (65, 70, st 30), (97, 102, st 30)]⟩,
  ⟨33, true, [(32, 32, tr37), (33, 33, st 26), (35, 35, tr39), (36, 36, st 26), (37, 37, st 27),
    (38, 46, st 26), (47, 47, st 34), (48, 59, st 26), (61, 61, st 26), (63, 63, tr42),
    (64, 90, st 26), (95, 95, st 26), (97, 122, st 26), (126, 126, st 26), (128, 255, st 26),
    (606, 606, st 26), (635, 635, st 26), (637, 637, st 26)]⟩,
  ⟨34, true, [(32, 32, tr37), (33, 33, st 35), (35, 35, tr39), (36, 36, st 35), (37, 37, st 36),
    (38, 46, st 35), (47, 47, st 26), (48, 57, st 35), (58, 58, st 38), (59, 59, st 35),
    (61, 61, st 35), (63, 63, tr42), (64, 64, st 42), (65, 90, st 35), (91, 91, st 47),
    (95, 95, st 35), (97, 122, st 35), (126, 126, st 35), (606, 606, st 35), (635, 635, st 35),
    (637, 637, st 35)]⟩,
  ⟨35, true, [(32, 32, tr37), (33, 33, st 35), (35, 35, tr39), (36, 36, st 35), (37, 37, st 36),
    (38, 46, st 35), (47, 47, st 26), (48, 57, st 35), (58, 58, st 38), (59, 59, st 35),
    (61, 61, st 35), (63, 63, tr42), (64, 64, st 42), (65, 90, st 35), (95, 95, st 35),
    (97, 122, st 35), (126, 126, st 35), (606, 606, st 35), (635, 635, st 35), (637, 637, st 35)]⟩,
  ⟨36, false, [(48, 57, st 37), (65, 70, st 37), (97, 102, st 37)]⟩,
  ⟨37, false, [(48, 57, st 35), (65, 70, st 35), (97, 102, st 35)]⟩,
  ⟨38, true, [(32, 32, tr37), (33, 33, st 39), (35, 35, tr39), (36, 36, st 39), (37, 37, st 40),
    (38, 46, st 39), (47, 47, st 26), (48, 57, st 38), (58, 59, st 39), (61, 61, st 39),
    (63, 63, tr42), (64, 64, st 42), (65, 90, st 39), (95, 95, st 39), (97, 122, st 39),
    (126, 126, st 39), (606, 606, st 39), (635, 635, st 39), (637, 637, st 39)]⟩,
  ⟨39, true, [(33, 33, st 39), (36, 36, st 39), (37, 37, st 40), (38, 46, st 39),
    (48, 59, st 39), (61, 61, st 39), (64, 64, st 42), (65, 90, st 39), (95, 95, st 39),
    (97, 122, st 39), (126, 126, st 39), (606, 606, st 39), (635, 635, st 39), (637, 637, st 39)]⟩,
  ⟨40, false, [(48, 57, st 41), (65, 70, st 41), (97, 102, st 41)]⟩,
  ⟨41, false, [(48, 57, st 39), (65, 70, st 39), (97, 102, st 39)]⟩,
  ⟨42, true, [(32, 32, tr37), (33, 33, st 43), (35, 35, tr39), (36, 36, st 43), (37, 37, st 44),
    (38, 46, st 43), (47, 47, st 26), (48, 57, st 43), (58, 58, st 46), (59, 59, st 43),
    (61, 61, st 43), (63, 63, tr42), (65, 90, st 43), (91, 91, st 47), (95, 95, st 43),
    (97, 122, st 43), (126, 126, st 43), (606, 606, st 43), (635, 635, st 43), (637, 637, st 43)]⟩,
  ⟨43, true, [(32, 32, tr37), (33, 33, st 43), (35, 35, tr39), (36, 36, st 43), (37, 37, st 44),
    (38, 46, st 43), (47, 47, st 26), (48, 57, st 43), (58, 58, st 46), (59, 59, st 43),
    (61, 61, st 43), (63, 63, tr42), (65, 90, st 43), (95, 95, st 43), (97, 122, st 43),
    (126, 126, st 43), (606, 606, st 43), (635, 635, st 43), (637, 637, st 43)]⟩,
  ⟨44, false, [(48, 57, st 45), (65, 70, st 45), (97, 102, st 45)]⟩,
  ⟨45, false, [(48, 57, st 43), (65, 70, st 43), (97, 102, st 43)]⟩,
  ⟨46, false, [(32, 32, tr37), (35, 35, tr39), (47, 47, st 26), (48, 57, st 46), (63, 63, tr42)]⟩,
  ⟨47, false, [(6, 6, st 48), (48, 57, st 91), (58, 58, st 167), (65, 70, st 91),
    (97, 102, st 91), (118, 118, st 169)]⟩,
  ⟨48, false, [(48, 57, st 49), (65, 70, st 49), (97, 102, st 49)]⟩,
  ⟨49, false, [(48, 57, st 50), (58, 58, st 53), (65, 70, st 50), (97, 102, st 50)]⟩,
  ⟨50, false, [(48, 57, st 51), (58, 58, st 53), (65, 70, st 51), (97, 102, st 51)]⟩]

/-- States 51 to 100. -/
def states51 : List Row := [
  ⟨51, false, [(48, 57, st 52), (58, 58, st 53), (65, 70, st 52), (97, 102, st 52)]⟩,
  ⟨52, false, [(58, 58, st 53)]⟩,
  ⟨53, false, [(48, 48, st 54), (49, 49, st 84), (50, 50, st 87), (51, 57, st 54),
    (65, 70, st 90), (97, 102, st 90)]⟩,
  ⟨54, false, [(46, 46, st 55), (48, 57, st 77), (58, 58, st 80), (65, 70, st 77),
    (97, 102, st 77)]⟩,
  ⟨55, false, [(48, 48, st 56), (49, 49, st 72), (50, 50, st 74), (51, 57, st 56)]⟩,
  ⟨56, false, [(46, 46, st 57)]⟩,
  ⟨57, false, [(48, 48, st 58), (49, 49, st 67), (50, 50, st 69), (51, 57, st 58)]⟩,
  ⟨58, false, [(46, 46, st 59)]⟩,
  ⟨59, false, [(48, 48, st 60), (49, 49, st 62), (50, 50, st 64), (51, 57, st 60)]⟩,
  ⟨60, false, [(93, 93, st 61)]⟩,
  ⟨61, false, [(32, 32, tr37), (35, 35, tr39), (47, 47, st 26), (58, 58, st 46), (63, 63, tr42)]⟩,
  ⟨62, false, [(48, 57, st 63), (93, 93, st 61)]⟩,
  ⟨63, false, [(48, 57, st 60), (93, 93, st 61)]⟩,
  ⟨64, false, [(48, 48, st 65), (53, 53, st 66), (93, 93, st 61)]⟩,
  ⟨65, false, [(48, 57, st 60)]⟩,
  ⟨66, false, [(48, 48, st 60)]⟩,
  ⟨67, false, [(46, 46, st 59), (48, 57, st 68)]⟩,
  ⟨68, false, [(46, 46, st 59), (48, 57, st 58)]⟩,
  ⟨69, false, [(46, 46, st 59), (48, 48, st 70), (53, 53, st 71)]⟩,
  ⟨70, false, [(48, 57, st 58)]⟩,
  ⟨71, false, [(48, 48, st 58)]⟩,
  ⟨72, false, [(46, 46, st 57), (48, 57, st 73)]⟩,
  ⟨73, false, [(46, 46, st 57), (48, 57, st 56)]⟩,
  ⟨74, false, [(46, 46, st 57), (48, 48, st 75), (53, 53, st 76)]⟩,
  ⟨75, false, [(48, 57, st 56)]⟩,
  ⟨76, false, [(48, 48, st 56)]⟩,
  ⟨77, false, [(48, 57, st 78), (58, 58, st 80), (65, 70, st 78), (97, 102, st 78)]⟩,
  ⟨78, false, [(48, 57, st 79), (58, 58, st 80), (65, 70, st 79), (97, 102, st 79)]⟩,
  ⟨79, false, [(58, 58, st 80)]⟩,
  ⟨80, false, [(48, 57, st 81), (65, 70, st 81), (97, 102, st 81)]⟩,
  ⟨81, false, [(48, 57, st 82), (65, 70, st 82), (93, 93, st 61), (97, 102, st 82)]⟩,
  ⟨82, false, [(48, 57, st 83), (65, 70, st 83), (93, 93, st 61), (97, 102, st 83)]⟩,
  ⟨83, false, [(48, 57, st 60), (65, 70, st 60), (93, 93, st 61), (97, 102, st 60)]⟩,
  ⟨84, false, [(46, 46, st 55), (48, 57, st 85), (58, 58, st 80), (65, 70, st 77),
    (97, 102, st 77)]⟩,
  ⟨85, false, [(46, 46, st 55), (48, 57, st 86), (58, 58, st 80), (65, 70, st 78),
    (97, 102, st 78)]⟩,
  ⟨86, false, [(46, 46, st 55), (48, 57, st 79), (58, 58, st 80), (65, 70, st 79),
    (97, 102, st 79)]⟩,
  ⟨87, false, [(46, 46, st 55), (48, 48, st 88), (49, 52, st 77), (53, 53, st 89),
    (54, 57, st 77), (58, 58, st 80), (65, 70, st 77), (97, 102, st 77)]⟩,
  ⟨88, false, [(48, 57, st 86), (58, 58, st 80), (65, 70, st 78), (97, 102, st 78)]⟩,
  ⟨89, false, [(48, 48, st 86), (49, 57, st 78), (58, 58, st 80), (65, 70, st 78),
    (97, 102, st 78)]⟩,
  ⟨90, false, [(48, 57, st 77), (58, 58, st 80), (65, 70, st 77), (97, 102, st 77)]⟩,
  ⟨91, false, [(48, 57, st 92), (58, 58, st 95), (65, 70, st 92), (97, 102, st 92)]⟩,
  ⟨92, false, [(48, 57, st 93), (58, 58, st 95), (65, 70, st 93), (97, 102, st 93)]⟩,
  ⟨93, false, [(48, 57, st 94), (58, 58, st 95), (65, 70, st 94), (97, 102, st 94)]⟩,
  ⟨94, false, [(58, 58, st 95)]⟩,
  ⟨95, false, [(48, 57, st 96), (58, 58, st 166), (65, 70, st 96), (97, 102, st 96)]⟩,
  ⟨96, false, [(48, 57, st 97), (58, 58, st 100), (65, 70, st 97), (97, 102, st 97)]⟩,
  ⟨97, false, [(48, 57, st 98), (58, 58, st 100), (65, 70, st 98), (97, 102, st 98)]⟩,
  ⟨98, false, [(48, 57, st 99), (58, 58, st 100), (65, 70, st 99), (97, 102, st 99)]⟩,
  ⟨99, false, [(58, 58, st 100)]⟩,
  ⟨100, false, [(48, 57, st 101), (58, 58, st 165), (65, 70, st 101), (97, 102, st 101)]⟩]

/-- States 101 to 150. -/
def states101 : List Row := [
  ⟨101, false, [(48, 57, st 102), (58, 58, st 105), (65, 70, st 102), (97, 102, st 102)]⟩,
  ⟨102, false, [(48, 57, st 103), (58, 58, st 105), (65, 70, st 103), (97, 102, st 103)]⟩,
  ⟨103, false, [(48, 57, st 104), (58, 58, st 105), (65, 70, st 104), (97, 102, st 104)]⟩,
  ⟨104, false, [(58, 58, st 105)]⟩,
  ⟨105, false, [(48, 57, st 106), (58, 58, st 164), (65, 70, st 106), (97, 102, st 106)]⟩,
  ⟨106, false, [(48, 57, st 107), (58, 58, st 110), (65, 70, st 107), (97, 102, st 107)]⟩,
  ⟨107, false, [(48, 57, st 108), (58, 58, st 110), (65, 70, st 108), (97, 102, st 108)]⟩,
  ⟨108, false, [(48, 57, st 109), (58, 58, st 110), (65, 70, st 109), (97, 102, st 109)]⟩,
  ⟨109, false, [(58, 58, st 110)]⟩,
  ⟨110, false, [(48, 57, st 111), (58, 58, st 163), (65, 70, st 111), (97, 102, st 111)]⟩,
  ⟨111, false, [(48, 57, st 112), (58, 58, st 115), (65, 70, st 112), (97, 102, st 112)]⟩,
  ⟨112, false, [(48, 57, st 113), (58, 58, st 115), (65, 70, st 113), (97, 102, st 113)]⟩,
  ⟨113, false, [(48, 57, st 114), (58, 58, st 115), (65, 70, st 114), (97, 102, st 114)]⟩,
  ⟨114, false, [(58, 58, st 115)]⟩,
  ⟨115, false, [(48, 57, st 116), (58, 58, st 151), (65, 70, st 116), (97, 102, st 116)]⟩,
  ⟨116, false, [(48, 57, st 117), (58, 58, st 120), (65, 70, st 117), (97, 102, st 117)]⟩,
  ⟨117, false, [(48, 57, st 118), (58, 58, st 120), (65, 70, st 118), (97, 102, st 118)]⟩,
  ⟨118, false, [(48, 57, st 119), (58, 58, st 120), (65, 70, st 119), (97, 102, st 119)]⟩,
  ⟨119, false, [(58, 58, st 120)]⟩,
  ⟨120, false, [(48, 57, st 121), (58, 58, st 150), (65, 70, st 121), (97, 102, st 121)]⟩,
  ⟨121, false, [(48, 57, st 122), (58, 58, st 125), (65, 70, st 122), (97, 102, st 122)]⟩,
  ⟨122, false, [(48, 57, st 123), (58, 58, st 125), (65, 70, st 123), (97, 102, st 123)]⟩,
  ⟨123, false, [(48, 57, st 124), (58, 58, st 125), (65, 70, st 124), (97, 102, st 124)]⟩,
  ⟨124, false, [(58, 58, st 125)]⟩,
  ⟨125, false, [(48, 57, st 121), (58, 58, st 126), (65, 70, st 121), (97, 102, st 121)]⟩,
  ⟨126, false, [(2, 3, st 48), (48, 48, st 127), (49, 49, st 143), (50, 50, st 146),
    (51, 57, st 127), (65, 70, st 149), (93, 93, st 61), (97, 102, st 149)]⟩,
  ⟨127, false, [(46, 46, st 55), (48, 57, st 128), (58, 58, st 131), (65, 70, st 128),
    (93, 93, st 61), (97, 102, st 128)]⟩,
  ⟨128, false, [(48, 57, st 129), (58, 58, st 131), (65, 70, st 129), (93, 93, st 61),
    (97, 102, st 129)]⟩,
  ⟨129, false, [(48, 57, st 130), (58, 58, st 131), (65, 70, st 130), (93, 93, st 61),
    (97, 102, st 130)]⟩,
  ⟨130, false, [(58, 58, st 131), (93, 93, st 61)]⟩,
  ⟨131, false, [(48, 48, st 132), (49, 49, st 136), (50, 50, st 139), (51, 57, st 132),
    (65, 70, st 142), (97, 102, st 142)]⟩,
  ⟨132, false, [(46, 46, st 55), (48, 57, st 133), (58, 58, st 80), (65, 70, st 133),
    (93, 93, st 61), (97, 102, st 133)]⟩,
  ⟨133, false, [(48, 57, st 134), (58, 58, st 80), (65, 70, st 134), (93, 93, st 61),
    (97, 102, st 134)]⟩,
  ⟨134, false, [(48, 57, st 135), (58, 58, st 80), (65, 70, st 135), (93, 93, st 61),
    (97, 102, st 135)]⟩,
  ⟨135, false, [(58, 58, st 80), (93, 93, st 61)]⟩,
  ⟨136, false, [(46, 46, st 55), (48, 57, st 137), (58, 58, st 80), (65, 70, st 133),
    (93, 93, st 61), (97, 102, st 133)]⟩,
  ⟨137, false, [(46, 46, st 55), (48, 57, st 138), (58, 58, st 80), (65, 70, st 134),
    (93, 93, st 61), (97, 102, st 134)]⟩,
  ⟨138, false, [(46, 46, st 55), (48, 57, st 135), (58, 58, st 80), (65, 70, st 135),
    (93, 93, st 61), (97, 102, st 135)]⟩,
  ⟨139, false, [(46, 46, st 55), (48, 48, st 140), (49, 52, st 133), (53, 53, st 141),
    (54, 57, st 133), (58, 58, st 80), (65, 70, st 133), (93, 93, st 61), (97, 102, st 133)]⟩,
  ⟨140, false, [(48, 57, st 138), (58, 58, st 80), (65, 70, st 134), (93, 93, st 61),
    (97, 102, st 134)]⟩,
  ⟨141, false, [(48, 48, st 138), (49, 57, st 134), (58, 58, st 80), (65, 70, st 134),
    (93, 93, st 61), (97, 102, st 134)]⟩,
  ⟨142, false, [(48, 57, st 133), (58, 58, st 80), (65, 70, st 133), (93, 93, st 61),
    (97, 102, st 133)]⟩,
  ⟨143, false, [(46, 46, st 55), (48, 57, st 144), (58, 58, st 131), (65, 70, st 128),
    (93, 93, st 61), (97, 102, st 128)]⟩,
  ⟨144, false, [(46, 46, st 55), (48, 57, st 145), (58, 58, st 131), (65, 70, st 129),
    (93, 93, st 61), (97, 102, st 129)]⟩,
  ⟨145, false, [(46, 46, st 55), (48, 57, st 130), (58, 58, st 131), (65, 70, st 130),
    (93, 93, st 61), (97, 102, st 130)]⟩,
  ⟨146, false, [(46, 46, st 55), (48, 48, st 147), (49, 52, st 128), (53, 53, st 148),
    (54, 57, st 128), (58, 58, st 131), (65, 70, st 128), (93, 93, st 61), (97, 102, st 128)]⟩,
  ⟨147, false, [(48, 57, st 145), (58, 58, st 131), (65, 70, st 129), (93, 93, st 61),
    (97, 102, st 129)]⟩,
  ⟨148, false, [(48, 48, st 145), (49, 57, st 129), (58, 58, st 131), (65, 70, st 129),
    (93, 93, st 61), (97, 102, st 129)]⟩,
  ⟨149, false, [(48, 57, st 128), (58, 58, st 131), (65, 70, st 128), (93, 93, st 61),
    (97, 102, st 128)]⟩,
  ⟨150, false, [(2, 3, st 48), (48, 48, st 127), (49, 49, st 143), (50, 50, st 146),
    (51, 57, st 127), (65, 70, st 149), (97, 102, st 149)]⟩]

/-- States 151 to 200. -/
def states151 : List Row := [
  ⟨151, false, [(2, 3, st 48), (48, 48, st 152), (49, 49, st 156), (50, 50, st 159),
    (51, 57, st 152), (65, 70, st 162), (97, 102, st 162)]⟩,
  ⟨152, false, [(46, 46, st 55), (48, 57, st 153), (58, 58, st 131), (65, 70, st 153),
    (97, 102, st 153)]⟩,
  ⟨153, false, [(48, 57, st 154), (58, 58, st 131), (65, 70, st 154), (97, 102, st 154)]⟩,
  ⟨154, false, [(48, 57, st 155), (58, 58, st 131), (65, 70, st 155), (97, 102, st 155)]⟩,
  ⟨155, false, [(58, 58, st 131)]⟩,
  ⟨156, false, [(46, 46, st 55), (48, 57, st 157), (58, 58, st 131), (65, 70, st 153),
    (97, 102, st 153)]⟩,
  ⟨157, false, [(46, 46, st 55), (48, 57, st 158), (58, 58, st 131), (65, 70, st 154),
    (97, 102, st 154)]⟩,
  ⟨158, false, [(46, 46, st 55), (48, 57, st 155), (58, 58, st 131), (65, 70, st 155),
    (97, 102, st 155)]⟩,
  ⟨159, false, [(46, 46, st 55), (48, 48, st 160), (49, 52, st 153), (53, 53, st 161),
    (54, 57, st 153), (58, 58, st 131), (65, 70, st 153), (97, 102, st 153)]⟩,
  ⟨160, false, [(48, 57, st 158), (58, 58, st 131), (65, 70, st 154), (97, 102, st 154)]⟩,
  ⟨161, false, [(48, 48, st 158), (49, 57, st 154), (58, 58, st 131), (65, 70, st 154),
    (97, 102, st 154)]⟩,
  ⟨162, false, [(48, 57, st 153), (58, 58, st 131), (65, 70, st 153), (97, 102, st 153)]⟩,
  ⟨163, false, [(2, 3, st 48), (48, 57, st 49), (65, 70, st 49), (97, 102, st 49)]⟩,
  ⟨164, false, [(2, 3, st 48)]⟩,
  ⟨165, false, [(3, 3, st 48)]⟩,
  ⟨166, false, [(4, 4, st 48)]⟩,
  ⟨167, false, [(58, 58, st 168)]⟩,
  ⟨168, false, [(2, 5, st 48), (48, 48, st 127), (49, 49, st 143), (50, 50, st 146),
    (51, 57, st 127), (65, 70, st 149), (93, 93, st 61), (97, 102, st 149)]⟩,
  ⟨169, false, [(48, 57, st 170), (65, 70, st 170), (97, 102, st 170)]⟩,
  ⟨170, false, [(46, 46, st 171), (48, 57, st 170), (65, 70, st 170), (97, 102, st 170)]⟩,
  ⟨171, true, [(33, 33, st 172), (36, 36, st 172), (38, 46, st 172), (48, 59, st 172),
    (61, 61, st 172), (65, 90, st 172), (95, 95, st 172), (97, 122, st 172), (126, 126, st 172),
    (606, 606, st 172), (635, 635, st 172), (637, 637, st 172)]⟩,
  ⟨172, true, [(33, 33, st 172), (36, 36, st 172), (38, 46, st 172), (48, 59, st 172),
    (61, 61, st 172), (65, 90, st 172), (93, 93, st 61), (95, 95, st 172), (97, 122, st 172),
    (126, 126, st 172), (606, 606, st 172), (635, 635, st 172), (637, 637, st 172)]⟩,
  ⟨173, true, [(32, 32, tr37), (33, 33, st 19), (35, 35, tr39), (36, 36, st 19),
    (37, 37, st 24), (38, 42, st 19), (43, 43, st 173), (44, 44, st 19), (45, 46, st 173),
    (47, 47, st 26), (48, 57, st 173), (58, 58, st 174), (59, 59, st 19), (61, 61, st 19),
    (63, 63, tr42), (64, 64, st 19), (65, 90, st 173), (95, 95, st 19), (97, 122, st 173),
    (126, 126, st 19), (606, 606, st 19), (635, 635, st 19), (637, 637, st 19)]⟩,
  ⟨174, true, [(32, 32, tr6), (33, 33, tr203), (35, 35, tr8), (36, 36, tr203), (37, 37, tr204),
    (38, 46, tr203), (47, 47, tr10), (48, 59, tr203), (61, 61, tr203), (63, 63, tr11),
    (64, 90, tr203), (95, 95, tr203), (97, 122, tr203), (126, 126, tr203), (128, 255, tr203),
    (606, 606, tr203), (635, 635, tr203), (637, 637, tr203)]⟩,
  ⟨175, false, [(32, 32, tr4), (48, 57, st 176), (65, 90, st 176)]⟩,
  ⟨176, false, [(32, 32, tr4), (48, 57, st 177), (65, 90, st 177)]⟩,
  ⟨177, false, [(32, 32, tr4), (48, 57, st 178), (65, 90, st 178)]⟩,
  ⟨178, false, [(32, 32, tr4), (48, 57, st 179), (65, 90, st 179)]⟩,
  ⟨179, false, [(32, 32, tr4), (48, 57, st 180), (65, 90, st 180)]⟩,
  ⟨180, false, [(32, 32, tr4), (48, 57, st 181), (65, 90, st 181)]⟩,
  ⟨181, false, [(32, 32, tr4), (48, 57, st 182), (65, 90, st 182)]⟩,
  ⟨182, false, [(32, 32, tr4), (48, 57, st 183), (65, 90, st 183)]⟩,
  ⟨183, false, [(32, 32, tr4), (48, 57, st 184), (65, 90, st 184)]⟩,
  ⟨184, false, [(32, 32, tr4), (48, 57, st 185), (65, 90, st 185)]⟩,
  ⟨185, false, [(32, 32, tr4), (48, 57, st 186), (65, 90, st 186)]⟩,
  ⟨186, false, [(32, 32, tr4), (48, 57, st 187), (65, 90, st 187)]⟩,
  ⟨187, false, [(32, 32, tr4), (48, 57, st 188), (65, 90, st 188)]⟩,
  ⟨188, false, [(32, 32, tr4), (48, 57, st 189), (65, 90, st 189)]⟩,
  ⟨189, false, [(32, 32, tr4), (48, 57, st 190), (65, 90, st 190)]⟩,
  ⟨190, false, [(32, 32, tr4), (48, 57, st 191), (65, 90, st 191)]⟩,
  ⟨191, false, [(32, 32, tr4), (48, 57, st 192), (65, 90, st 192)]⟩,
  ⟨192, false, [(32, 32, tr4), (48, 57, st 193), (65, 90, st 193)]⟩,
  ⟨193, false, [(32, 32, tr4)]⟩,
  ⟨194, false, [(45, 46, st 195), (48, 57, st 195), (65, 90, st 195), (97, 122, st 195)]⟩,
  ⟨195, false, [(9, 13, tr224), (32, 32, tr224), (45, 46, st 195), (47, 47, tr224),
    (48, 57, st 195), (62, 62, tr224), (65, 90, st 195), (97, 122, st 195)]⟩,
  ⟨196, false, [(0, 61, st 196), (62, 62, st 197), (63, 255, st 196)]⟩,
  ⟨197, false, [(0, 0, tr227), (1, 61, st 196), (62, 62, st 197), (63, 255, st 196)]⟩,
  ⟨198, true, [(32, 32, tr228), (33, 33, st 202), (36, 36, st 202), (37, 37, st 203),
    (38, 46, st 202), (47, 47, st 208), (48, 57, st 202), (59, 59, st 202), (61, 61, st 202),
    (64, 90, st 202), (95, 95, st 202), (97, 122, st 202), (126, 126, st 202),
    (606, 606, st 202), (635, 635, st 202), (637, 637, st 202)]⟩,
  ⟨199, false, [(123, 123, tr232)]⟩,
  ⟨200, false, [(0, 124, st 200), (125, 125, st 201), (126, 255, st 200)]⟩]

/-- States 201 to 250. -/
def states201 : List Row := [
  ⟨201, false, [(0, 0, tr235), (1, 124, st 200), (125, 125, st 201), (126, 255, st 200)]⟩,
  ⟨202, true, [(32, 32, tr228), (33, 33, st 202), (36, 36, st 202), (37, 37, st 203),
    (38, 46, st 202), (47, 47, st 205), (48, 57, st 202), (59, 59, st 202), (61, 61, st 202),
    (64, 90, st 202), (95, 95, st 202), (97, 122, st 202), (126, 126, st 202),
    (606, 606, st 202), (635, 635, st 202), (637, 637, st 202)]⟩,
  ⟨203, false, [(48, 57, st 204), (65, 70, st 204), (97, 102, st 204)]⟩,
  ⟨204, false, [(48, 57, st 202), (65, 70, st 202), (97, 102, st 202)]⟩,
  ⟨205, true, [(32, 32, tr228), (33, 33, st 205), (36, 36, st 205), (37, 37, st 206),
    (38, 59, st 205), (61, 61, st 205), (64, 90, st 205), (95, 95, st 205), (97, 122, st 205),
    (126, 126, st 205), (128, 255, st 205), (606, 606, st 205), (635, 635, st 205),
    (637, 637, st 205)]⟩,
  ⟨206, false, [(48, 57, st 207), (65, 70, st 207), (97, 102, st 207)]⟩,
  ⟨207, false, [(48, 57, st 205), (65, 70, st 205), (97, 102, st 205)]⟩,
  ⟨208, true, [(32, 32, tr228), (33, 33, st 205), (36, 36, st 205), (37, 37, st 206),
    (38, 46, st 205), (47, 47, st 209), (48, 59, st 205), (61, 61, st 205), (64, 90, st 205),
    (95, 95, st 205), (97, 122, st 205), (126, 126, st 205), (128, 255, st 205),
    (606, 606, st 205), (635, 635, st 205), (637, 637, st 205)]⟩,
  ⟨209, true, [(32, 32, tr228), (33, 33, st 210), (36, 36, st 210), (37, 37, st 211),
    (38, 46, st 210), (47, 47, st 205), (48, 57, st 210), (58, 58, st 213), (59, 59, st 210),
    (61, 61, st 210), (64, 64, st 217), (65, 90, st 210), (91, 91, st 222), (95, 95, st 210),
    (97, 122, st 210), (126, 126, st 210), (606, 606, st 210), (635, 635, st 210),
    (637, 637, st 210)]⟩,
  ⟨210, true, [(32, 32, tr228), (33, 33, st 210), (36, 36, st 210), (37, 37, st 211),
    (38, 46, st 210), (47, 47, st 205), (48, 57, st 210), (58, 58, st 213), (59, 59, st 210),
    (61, 61, st 210), (64, 64, st 217), (65, 90, st 210), (95, 95, st 210), (97, 122, st 210),
    (126, 126, st 210), (606, 606, st 210), (635, 635, st 210), (637, 637, st 210)]⟩,
  ⟨211, false, [(48, 57, st 212), (65, 70, st 212), (97, 102, st 212)]⟩,
  ⟨212, false, [(48, 57, st 210), (65, 70, st 210), (97, 102, st 210)]⟩,
  ⟨213, true, [(32, 32, tr228), (33, 33, st 214), (36, 36, st 214), (37, 37, st 215),
    (38, 46, st 214), (47, 47, st 205), (48, 57, st 213), (58, 59, st 214), (61, 61, st 214),
    (64, 64, st 217), (65, 90, st 214), (95, 95, st 214), (97, 122, st 214), (126, 126, st 214),
    (606, 606, st 214), (635, 635, st 214), (637, 637, st 214)]⟩,
  ⟨214, true, [(33, 33, st 214), (36, 36, st 214), (37, 37, st 215), (38, 46, st 214),
    (48, 59, st 214), (61, 61, st 214), (64, 64, st 217), (65, 90, st 214), (95, 95, st 214),
    (97, 122, st 214), (126, 126, st 214), (606, 606, st 214), (635, 635, st 214),
    (637, 637, st 214)]⟩,
  ⟨215, false, [(48, 57, st 216), (65, 70, st 216), (97, 102, st 216)]⟩,
  ⟨216, false, [(48, 57, st 214), (65, 70, st 214), (97, 102, st 214)]⟩,
  ⟨217, true, [(32, 32, tr228), (33, 33, st 218), (36, 36, st 218), (37, 37, st 219),
    (38, 46, st 218), (47, 47, st 205), (48, 57, st 218), (58, 58, st 221), (59, 59, st 218),
    (61, 61, st 218), (65, 90, st 218), (91, 91, st 222), (95, 95, st 218), (97, 122, st 218),
    (126, 126, st 218), (606, 606, st 218), (635, 635, st 218), (637, 637, st 218)]⟩,
  ⟨218, true, [(32, 32, tr228), (33, 33, st 218), (36, 36, st 218), (37, 37, st 219),
    (38, 46, st 218), (47, 47, st 205), (48, 57, st 218), (58, 58, st 221), (59, 59, st 218),
    (61, 61, st 218), (65, 90, st 218), (95, 95, st 218), (97, 122, st 218), (126, 126, st 218),
    (606, 606, st 218), (635, 635, st 218), (637, 637, st 218)]⟩,
  ⟨219, false, [(48, 57, st 220), (65, 70, st 220), (97, 102, st 220)]⟩,
  ⟨220, false, [(48, 57, st 218), (65, 70, st 218), (97, 102, st 218)]⟩,
  ⟨221, false, [(32, 32, tr228), (47, 47, st 205), (48, 57, st 221)]⟩,
  ⟨222, false, [(6, 6, st 223), (48, 57, st 266), (58, 58, st 342), (65, 70, st 266),
    (97, 102, st 266), (118, 118, st 344)]⟩,
  ⟨223, false, [(48, 57, st 224), (65, 70, st 224), (97, 102, st 224)]⟩,
  ⟨224, false, [(48, 57, st 225), (58, 58, st 228), (65, 70, st 225), (97, 102, st 225)]⟩,
  ⟨225, false, [(48, 57, st 226), (58, 58, st 228), (65, 70, st 226), (97, 102, st 226)]⟩,
  ⟨226, false, [(48, 57, st 227), (58, 58, st 228), (65, 70, st 227), (97, 102, st 227)]⟩,
  ⟨227, false, [(58, 58, st 228)]⟩,
  ⟨228, false, [(48, 48, st 229), (49, 49, st 259), (50, 50, st 262), (51, 57, st 229),
    (65, 70, st 265), (97, 102, st 265)]⟩,
  ⟨229, false, [(46, 46, st 230), (48, 57, st 252), (58, 58, st 255), (65, 70, st 252),
    (97, 102, st 252)]⟩,
  ⟨230, false, [(48, 48, st 231), (49, 49, st 247), (50, 50, st 249), (51, 57, st 231)]⟩,
  ⟨231, false, [(46, 46, st 232)]⟩,
  ⟨232, false, [(48, 48, st 233), (49, 49, st 242), (50, 50, st 244), (51, 57, st 233)]⟩,
  ⟨233, false, [(46, 46, st 234)]⟩,
  ⟨234, false, [(48, 48, st 235), (49, 49, st 237), (50, 50, st 239), (51, 57, st 235)]⟩,
  ⟨235, false, [(93, 93, st 236)]⟩,
  ⟨236, false, [(32, 32, tr228), (47, 47, st 205), (58, 58, st 221)]⟩,
  ⟨237, false, [(48, 57, st 238), (93, 93, st 236)]⟩,
  ⟨238, false, [(48, 57, st 235), (93, 93, st 236)]⟩,
  ⟨239, false, [(48, 48, st 240), (53, 53, st 241), (93, 93, st 236)]⟩,
  ⟨240, false, [(48, 57, st 235)]⟩,
  ⟨241, false, [(48, 48, st 235)]⟩,
  ⟨242, false, [(46, 46, st 234), (48, 57, st 243)]⟩,
  ⟨243, false, [(46, 46, st 234), (48, 57, st 233)]⟩,
  ⟨244, false, [(46, 46, st 234), (48, 48, st 245), (53, 53, st 246)]⟩,
  ⟨245, false, [(48, 57, st 233)]⟩,
  ⟨246, false, [(48, 48, st 233)]⟩,
  ⟨247, false, [(46, 46, st 232), (48, 57, st 248)]⟩,
  ⟨248, false, [(46, 46, st 232), (48, 57, st 231)]⟩,
  ⟨249, false, [(46, 46, st 232), (48, 48, st 250), (53, 53, st 251)]⟩,
  ⟨250, false, [(48, 57, st 231)]⟩]

/-- States 251 to 300. -/
def states251 : List Row := [
  ⟨251, false, [(48, 48, st 231)]⟩,
  ⟨252, false, [(48, 57, st 253), (58, 58, st 255), (65, 70, st 253), (97, 102, st 253)]⟩,
  ⟨253, false, [(48, 57, st 254), (58, 58, st 255), (65, 70, st 254), (97, 102, st 254)]⟩,
  ⟨254, false, [(58, 58, st 255)]⟩,
  ⟨255, false, [(48, 57, st 256), (65, 70, st 256), (97, 102, st 256)]⟩,
  ⟨256, false, [(48, 57, st 257), (65, 70, st 257), (93, 93, st 236), (97, 102, st 257)]⟩,
  ⟨257, false, [(48, 57, st 258), (65, 70, st 258), (93, 93, st 236), (97, 102, st 258)]⟩,
  ⟨258, false, [(48, 57, st 235), (65, 70, st 235), (93, 93, st 236), (97, 102, st 235)]⟩,
  ⟨259, false, [(46, 46, st 230), (48, 57, st 260), (58, 58, st 255), (65, 70, st 252),
    (97, 102, st 252)]⟩,
  ⟨260, false, [(46, 46, st 230), (48, 57, st 261), (58, 58, st 255), (65, 70, st 253),
    (97, 102, st 253)]⟩,
  ⟨261, false, [(46, 46, st 230), (48, 57, st 254), (58, 58, st 255), (65, 70, st 254),
    (97, 102, st 254)]⟩,
  ⟨262, false, [(46, 46, st 230), (48, 48, st 263), (49, 52, st 252), (53, 53, st 264),
    (54, 57, st 252), (58, 58, st 255), (65, 70, st 252), (97, 102, st 252)]⟩,
  ⟨263, false, [(48, 57, st 261), (58, 58, st 255), (65, 70, st 253), (97, 102, st 253)]⟩,
  ⟨264, false, [(48, 48, st 261), (49, 57, st 253), (58, 58, st 255), (65, 70, st 253),
    (97, 102, st 253)]⟩,
  ⟨265, false, [(48, 57, st 252), (58, 58, st 255), (65, 70, st 252), (97, 102, st 252)]⟩,
  ⟨266, false, [(48, 57, st 267), (58, 58, st 270), (65, 70, st 267), (97, 102, st 267)]⟩,
  ⟨267, false, [(48, 57, st 268), (58, 58, st 270), (65, 70, st 268), (97, 102, st 268)]⟩,
  ⟨268, false, [(48, 57, st 269), (58, 58, st 270), (65, 70, st 269), (97, 102, st 269)]⟩,
  ⟨269, false, [(58, 58, st 270)]⟩,
  ⟨270, false, [(48, 57, st 271), (58, 58, st 341), (65, 70, st 271), (97, 102, st 271)]⟩,
  ⟨271, false, [(48, 57, st 272), (58, 58, st 275), (65, 70, st 272), (97, 102, st 272)]⟩,
  ⟨272, false, [(48, 57, st 273), (58, 58, st 275), (65, 70, st 273), (97, 102, st 273)]⟩,
  ⟨273, false, [(48, 57, st 274), (58, 58, st 275), (65, 70, st 274), (97, 102, st 274)]⟩,
  ⟨274, false, [(58, 58, st 275)]⟩,
  ⟨275, false, [(48, 57, st 276), (58, 58, st 340), (65, 70, st 276), (97, 102, st 276)]⟩,
  ⟨276, false, [(48, 57, st 277), (58, 58, st 280), (65, 70, st 277), (97, 102, st 277)]⟩,
  ⟨277, false, [(48, 57, st 278), (58, 58, st 280), (65, 70, st 278), (97, 102, st 278)]⟩,
  ⟨278, false, [(48, 57, st 279), (58, 58, st 280), (65, 70, st 279), (97, 102, st 279)]⟩,
  ⟨279, false, [(58, 58, st 280)]⟩,
  ⟨280, false, [(48, 57, st 281), (58, 58, st 339), (65, 70, st 281), (97, 102, st 281)]⟩,
  ⟨281, false, [(48, 57, st 282), (58, 58, st 285), (65, 70, st 282), (97, 102, st 282)]⟩,
  ⟨282, false, [(48, 57, st 283), (58, 58, st 285), (65, 70, st 283), (97, 102, st 283)]⟩,
  ⟨283, false, [(48, 57, st 284), (58, 58, st 285), (65, 70, st 284), (97, 102, st 284)]⟩,
  ⟨284, false, [(58, 58, st 285)]⟩,
  ⟨285, false, [(48, 57, st 286), (58, 58, st 338), (65, 70, st 286), (97, 102, st 286)]⟩,
  ⟨286, false, [(48, 57, st 287), (58, 58, st 290), (65, 70, st 287), (97, 102, st 287)]⟩,
  ⟨287, false, [(48, 57, st 288), (58, 58, st 290), (65, 70, st 288), (97, 102, st 288)]⟩,
  ⟨288, false, [(48, 57, st 289), (58, 58, st 290), (65, 70, st 289), (97, 102, st 289)]⟩,
  ⟨289, false, [(58, 58, st 290)]⟩,
  ⟨290, false, [(48, 57, st 291), (58, 58, st 326), (65, 70, st 291), (97, 102, st 291)]⟩,
  ⟨291, false, [(48, 57, st 292), (58, 58, st 295), (65, 70, st 292), (97, 102, st 292)]⟩,
  ⟨292, false, [(48, 57, st 293), (58, 58, st 295), (65, 70, st 293), (97, 102, st 293)]⟩,
  ⟨293, false, [(48, 57, st 294), (58, 58, st 295), (65, 70, st 294), (97, 102, st 294)]⟩,
  ⟨294, false, [(58, 58, st 295)]⟩,
  ⟨295, false, [(48, 57, st 296), (58, 58, st 325), (65, 70, st 296), (97, 102, st 296)]⟩,
  ⟨296, false, [(48, 57, st 297), (58, 58, st 300), (65, 70, st 297), (97, 102, st 297)]⟩,
  ⟨297, false, [(48, 57, st 298), (58, 58, st 300), (65, 70, st 298), (97, 102, st 298)]⟩,
  ⟨298, false, [(48, 57, st 299), (58, 58, st 300), (65, 70, st 299), (97, 102, st 299)]⟩,
  ⟨299, false, [(58, 58, st 300)]⟩,
  ⟨300, false, [(48, 57, st 296), (58, 58, st 301), (65, 70, st 296), (97, 102, st 296)]⟩]

/-- States 301 to 349. -/
def states301 : List Row := [
  ⟨301, false, [(2, 3, st 223), (48, 48, st 302), (49, 49, st 318), (50, 50, st 321),
    (51, 57, st 302), (65, 70, st 324), (93, 93, st 236), (97, 102, st 324)]⟩,
  ⟨302, false, [(46, 46, st 230), (48, 57, st 303), (58, 58, st 306), (65, 70, st 303),
    (93, 93, st 236), (97, 102, st 303)]⟩,
  ⟨303, false, [(48, 57, st 304), (58, 58, st 306), (65, 70, st 304), (93, 93, st 236),
    (97, 102, st 304)]⟩,
  ⟨304, false, [(48, 57, st 305), (58, 58, st 306), (65, 70, st 305), (93, 93, st 236),
    (97, 102, st 305)]⟩,
  ⟨305, false, [(58, 58, st 306), (93, 93, st 236)]⟩,
  ⟨306, false, [(48, 48, st 307), (49, 49, st 311), (50, 50, st 314), (51, 57, st 307),
    (65, 70, st 317), (97, 102, st 317)]⟩,
  ⟨307, false, [(46, 46, st 230), (48, 57, st 308), (58, 58, st 255), (65, 70, st 308),
    (93, 93, st 236), (97, 102, st 308)]⟩,
  ⟨308, false, [(48, 57, st 309), (58, 58, st 255), (65, 70, st 309), (93, 93, st 236),
    (97, 102, st 309)]⟩,
  ⟨309, false, [(48, 57, st 310), (58, 58, st 255), (65, 70, st 310), (93, 93, st 236),
    (97, 102, st 310)]⟩,
  ⟨310, false, [(58, 58, st 255), (93, 93, st 236)]⟩,
  ⟨311, false, [(46, 46, st 230), (48, 57, st 312), (58, 58, st 255), (65, 70, st 308),
    (93, 93, st 236), (97, 102, st 308)]⟩,
  ⟨312, false, [(46, 46, st 230), (48, 57, st 313), (58, 58, st 255), (65, 70, st 309),
    (93, 93, st 236), (97, 102, st 309)]⟩,
  ⟨313, false, [(46, 46, st 230), (48, 57, st 310), (58, 58, st 255), (65, 70, st 310),
    (93, 93, st 236), (97, 102, st 310)]⟩,
  ⟨314, false, [(46, 46, st 230), (48, 48, st 315), (49, 52, st 308), (53, 53, st 316),
    (54, 57, st 308), (58, 58, st 255), (65, 70, st 308), (93, 93, st 236), (97, 102, st 308)]⟩,
  ⟨315, false, [(48, 57, st 313), (58, 58, st 255), (65, 70, st 309), (93, 93, st 236),
    (97, 102, st 309)]⟩,
  ⟨316, false, [(48, 48, st 313), (49, 57, st 309), (58, 58, st 255), (65, 70, st 309),
    (93, 93, st 236), (97, 102, st 309)]⟩,
  ⟨317, false, [(48, 57, st 308), (58, 58, st 255), (65, 70, st 308), (93, 93, st 236),
    (97, 102, st 308)]⟩,
  ⟨318, false, [(46, 46, st 230), (48, 57, st 319), (58, 58, st 306), (65, 70, st 303),
    (93, 93, st 236), (97, 102, st 303)]⟩,
  ⟨319, false, [(46, 46, st 230), (48, 57, st 320), (58, 58, st 306), (65, 70, st 304),
    (93, 93, st 236), (97, 102, st 304)]⟩,
  ⟨320, false, [(46, 46, st 230), (48, 57, st 305), (58, 58, st 306), (65, 70, st 305),
    (93, 93, st 236), (97, 102, st 305)]⟩,
  ⟨321, false, [(46, 46, st 230), (48, 48, st 322), (49, 52, st 303), (53, 53, st 323),
    (54, 57, st 303), (58, 58, st 306), (65, 70, st 303), (93, 93, st 236), (97, 102, st 303)]⟩,
  ⟨322, false, [(48, 57, st 320), (58, 58, st 306), (65, 70, st 304), (93, 93, st 236),
    (97, 102, st 304)]⟩,
  ⟨323, false, [(48, 48, st 320), (49, 57, st 304), (58, 58, st 306), (65, 70, st 304),
    (93, 93, st 236), (97, 102, st 304)]⟩,
  ⟨324, false, [(48, 57, st 303), (58, 58, st 306), (65, 70, st 303), (93, 93, st 236),
    (97, 102, st 303)]⟩,
  ⟨325, false, [(2, 3, st 223), (48, 48, st 302), (49, 49, st 318), (50, 50, st 321),
    (51, 57, st 302), (65, 70, st 324), (97, 102, st 324)]⟩,
  ⟨326, false, [(2, 3, st 223), (48, 48, st 327), (49, 49, st 331), (50, 50, st 334),
    (51, 57, st 327), (65, 70, st 337), (97, 102, st 337)]⟩,
  ⟨327, false, [(46, 46, st 230), (48, 57, st 328), (58, 58, st 306), (65, 70, st 328),
    (97, 102, st 328)]⟩,
  ⟨328, false, [(48, 57, st 329), (58, 58, st 306), (65, 70, st 329), (97, 102, st 329)]⟩,
  ⟨329, false, [(48, 57, st 330), (58, 58, st 306), (65, 70, st 330), (97, 102, st 330)]⟩,
  ⟨330, false, [(58, 58, st 306)]⟩,
  ⟨331, false, [(46, 46, st 230), (48, 57, st 332), (58, 58, st 306), (65, 70, st 328),
    (97, 102, st 328)]⟩,
  ⟨332, false, [(46, 46, st 230), (48, 57, st 333), (58, 58, st 306), (65, 70, st 329),
    (97, 102, st 329)]⟩,
  ⟨333, false, [(46, 46, st 230), (48, 57, st 330), (58, 58, st 306), (65, 70, st 330),
    (97, 102, st 330)]⟩,
  ⟨334, false, [(46, 46, st 230), (48, 48, st 335), (49, 52, st 328), (53, 53, st 336),
    (54, 57, st 328), (58, 58, st 306), (65, 70, st 328), (97, 102, st 328)]⟩,
  ⟨335, false, [(48, 57, st 333), (58, 58, st 306), (65, 70, st 329), (97, 102, st 329)]⟩,
  ⟨336, false, [(48, 48, st 333), (49, 57, st 329), (58, 58, st 306), (65, 70, st 329),
    (97, 102, st 329)]⟩,
  ⟨337, false, [(48, 57, st 328), (58, 58, st 306), (65, 70, st 328), (97, 102, st 328)]⟩,
  ⟨338, false, [(2, 3, st 223), (48, 57, st 224), (65, 70, st 224), (97, 102, st 224)]⟩,
  ⟨339, false, [(2, 3, st 223)]⟩,
  ⟨340, false, [(3, 3, st 223)]⟩,
  ⟨341, false, [(4, 4, st 223)]⟩,
  ⟨342, false, [(58, 58, st 343)]⟩,
  ⟨343, false, [(2, 5, st 223), (48, 48, st 302), (49, 49, st 318), (50, 50, st 321),
    (51, 57, st 302), (65, 70, st 324), (93, 93, st 236), (97, 102, st 324)]⟩,
  ⟨344, false, [(48, 57, st 345), (65, 70, st 345), (97, 102, st 345)]⟩,
  ⟨345, false, [(46, 46, st 346), (48, 57, st 345), (65, 70, st 345), (97, 102, st 345)]⟩,
  ⟨346, true, [(33, 33, st 347), (36, 36, st 347), (38, 46, st 347), (48, 59, st 347),
    (61, 61, st 347), (65, 90, st 347), (95, 95, st 347), (97, 122, st 347), (126, 126, st 347),
    (606, 606, st 347), (635, 635, st 347), (637, 637, st 347)]⟩,
  ⟨347, true, [(33, 33, st 347), (36, 36, st 347), (38, 46, st 347), (48, 59, st 347),
    (61, 61, st 347), (65, 90, st 347), (93, 93, st 236), (95, 95, st 347), (97, 122, st 347),
    (126, 126, st 347), (606, 606, st 347), (635, 635, st 347), (637, 637, st 347)]⟩,
  ⟨348, false, [(1, 8, st 14), (10, 31, st 14), (33, 33, st 14), (35, 39, st 14),
    (42, 43, st 14), (45, 46, st 14), (48, 57, st 14), (58, 58, tr27), (65, 90, st 14),
    (94, 122, st 14), (124, 124, st 14), (126, 126, st 14)]⟩,
  ⟨349, false, []⟩]

/-- The program: one row for each of the states 1 to 349. -/
def rows : List Row :=
  states1 ++ states51 ++ states101 ++ states151 ++ states201 ++ states251 ++ states301

/-- `http_parser_start` -/
def httpParserStart : ℕ := 1

/-- `http_parser_first_final` -/
def httpParserFirstFinal : ℕ := 348

/-- `http_parser_error` -/
def httpParserError : ℕ := 0

/-- `_widec` in the rows that compute it. -/
def widec (uriRelaxed : Bool) (b : ℕ) : ℕ :=
  if b = 94 ∨ b = 123 ∨ b = 125 then 128 + (b + 128) + (if uriRelaxed then 256 else 0) else b

/-- The label a row jumps to on a byte, `none` for `st0`. -/
def Row.label (uriRelaxed : Bool) (r : Row) (b : UInt8) : Option Label :=
  let c := if r.wide then widec uriRelaxed b.toNat else b.toNat
  (r.ranges.find? fun e => decide (e.1 ≤ c) && decide (c ≤ e.2.1)).map fun e => e.2.2

/-- The label the program jumps to in state `cs`. -/
def gotoLabel (uriRelaxed : Bool) (cs : ℕ) (b : UInt8) : Option Label :=
  (rows.find? fun r => r.cs == cs).bind fun r => r.label uriRelaxed b

/-- The program as a scanner: `st0` leaves the loop in front of the byte, the action `done` leaves
it behind the byte. -/
def machine (uriRelaxed : Bool) : Scan.Machine ℕ UInt8 Action where
  move cs b :=
    match gotoLabel uriRelaxed cs b with
    | none => .fail
    | some l => if Action.done ∈ l.acts then .brk l.acts l.next else .go l.acts l.next
  err := httpParserError

/-! ### What the table says -/

theorem mem_rows_of_edge {uriRelaxed : Bool} {cs cs' : ℕ} {b : UInt8} {as : List Action}
    (h : (machine uriRelaxed).Edge cs b as cs') :
    ∃ r ∈ rows, ∃ e ∈ r.ranges, r.cs = cs ∧ e.2.2 = ⟨as, cs'⟩ ∧
      (r.wide = false → e.1 ≤ b.toNat ∧ b.toNat ≤ e.2.1) := by
  have hl : gotoLabel uriRelaxed cs b = some ⟨as, cs'⟩ := by
    simp only [Scan.Machine.Edge, machine] at h
    cases hg : gotoLabel uriRelaxed cs b with
    | none => simp [hg] at h
    | some l =>
      simp only [hg] at h
      by_cases hd : Action.done ∈ l.acts
      · simp only [hd, ↓reduceIte, reduceCtorEq, false_or, Scan.Move.brk.injEq] at h
        rw [← h.1, ← h.2]
      · simp only [hd, ↓reduceIte, reduceCtorEq, or_false, Scan.Move.go.injEq] at h
        rw [← h.1, ← h.2]
  simp only [gotoLabel, Option.bind_eq_some_iff] at hl
  obtain ⟨r, hr, hrl⟩ := hl
  simp only [Row.label, Option.map_eq_some_iff] at hrl
  obtain ⟨e, he, hel⟩ := hrl
  have hcs := List.find?_some hr
  have hc := List.find?_some he
  refine ⟨r, List.mem_of_find?_eq_some hr, e, List.mem_of_find?_eq_some he, by simpa using hcs,
    hel, fun hw => ?_⟩
  simpa [hw] using hc

/-- The scan breaks off at the action `done`, and nowhere else. -/
theorem done_mem_of_brk {uriRelaxed : Bool} {cs cs' : ℕ} {b : UInt8} {as : List Action}
    (h : (machine uriRelaxed).move cs b = .brk as cs') : Action.done ∈ as := by
  simp only [machine] at h
  cases hg : gotoLabel uriRelaxed cs b with
  | none => simp [hg] at h
  | some l =>
    simp only [hg] at h
    split_ifs at h with hd
    simp only [Scan.Move.brk.injEq] at h
    exact h.1 ▸ hd

theorem done_notMem_of_go {uriRelaxed : Bool} {cs cs' : ℕ} {b : UInt8} {as : List Action}
    (h : (machine uriRelaxed).move cs b = .go as cs') : Action.done ∉ as := by
  simp only [machine] at h
  cases hg : gotoLabel uriRelaxed cs b with
  | none => simp [hg] at h
  | some l =>
    simp only [hg] at h
    split_ifs at h with hd
    simp only [Scan.Move.go.injEq] at h
    exact h.1 ▸ hd

/-- A method is handed over at a space. -/
theorem ranges_requestMethod :
    ∀ r ∈ rows, ∀ e ∈ r.ranges, Action.requestMethod ∈ e.2.2.acts →
      r.wide = false ∧ e.1 = 32 ∧ e.2.1 = 32 := by
  decide +kernel

theorem eq_space_of_edge_requestMethod {uriRelaxed : Bool} {cs cs' : ℕ} {b : UInt8}
    {as : List Action} (h : (machine uriRelaxed).Edge cs b as cs')
    (hm : Action.requestMethod ∈ as) : b = 32 := by
  obtain ⟨r, hr, e, he, -, hl, hb⟩ := mem_rows_of_edge h
  obtain ⟨hw, hlo, hhi⟩ := ranges_requestMethod r hr e he (by rw [hl]; exact hm)
  have := hb hw
  rw [hlo, hhi] at this
  exact UInt8.toNat_inj.1 (by simpa using Nat.le_antisymm this.2 this.1)

/-- The program enters a final state only with the action `done`, and it never jumps to state 0. -/
theorem ranges_next :
    ∀ r ∈ rows, ∀ e ∈ r.ranges, e.2.2.next ≠ httpParserError ∧
      (httpParserFirstFinal ≤ e.2.2.next ↔ Action.done ∈ e.2.2.acts) := by
  decide +kernel

theorem go_next {uriRelaxed : Bool} {cs cs' : ℕ} {b : UInt8} {as : List Action}
    (h : (machine uriRelaxed).move cs b = .go as cs') :
    cs' ≠ httpParserError ∧ cs' < httpParserFirstFinal := by
  obtain ⟨r, hr, e, he, -, hl, -⟩ := mem_rows_of_edge (.inl h)
  obtain ⟨hne, hfin⟩ := ranges_next r hr e he
  rw [hl] at hne hfin
  exact ⟨hne, not_le.1 fun hc => done_notMem_of_go h (hfin.1 hc)⟩

theorem brk_next {uriRelaxed : Bool} {cs cs' : ℕ} {b : UInt8} {as : List Action}
    (h : (machine uriRelaxed).move cs b = .brk as cs') : httpParserFirstFinal ≤ cs' := by
  obtain ⟨r, hr, e, he, -, hl, -⟩ := mem_rows_of_edge (.inr h)
  obtain ⟨-, hfin⟩ := ranges_next r hr e he
  rw [hl] at hfin
  exact hfin.2 (done_mem_of_brk h)

end Http

end YXTWebCpp
