import Stencil.Calendar.Pattern
import Stencil.Calendar.Reading
import Stencil.Value.Method
import Stencil.Text.Quoted

/-!
The filter that writes dates.
-/

namespace Stencil.Filter

open Stencil.Calendar (Moment readDay readMoment? format?)

/-- Why a value is not written as a date. -/
inductive DateError where
  | unreadable (text : String) (fault : Calendar.DateFault)
  | stampNotFinite
  | stampOutOfRange (stamp : Float)
  | noDate (kind : String)
  | badPattern (pattern : String)

def DateError.message : DateError → String
  | unreadable text fault => "无法解析日期 " ++ Text.quoted text ++ "：" ++ fault.message
  | stampNotFinite => "无效的时间戳"
  | stampOutOfRange stamp => "时间戳超出范围：" ++ Number.layout.float stamp
  | noDate kind => "无法将 " ++ kind ++ " 转换为日期"
  | badPattern pattern => "无效的日期格式：" ++ pattern

/-- The moment that a value denotes: a number of seconds since 1970, or a text. -/
def moment : Value → Except DateError Moment
  | .number n =>
    if n.toFloat.isFinite then
      match (Number.float n.toFloat).whole?.bind Moment.ofStamp? with
      | some m => .ok m
      | none => .error (.stampOutOfRange n.toFloat)
    else .error .stampNotFinite
  | .string s =>
    match readMoment? s with
    | some m => .ok m
    | none =>
      match readDay s with
      | .ok day => .ok (.ofDay day)
      | .error fault => .error (.unreadable s fault)
  | v => .error (.noDate v.typeName)

/-- A date under a pattern; without one, the year, the month and the day. -/
def date (v : Value) (args : List Value) : Except DateError Value := do
  let pattern := (Value.given? args 0).elim "%Y-%m-%d" Value.display
  let m ← moment v
  match format? m pattern.toList with
  | some text => pure (.string (String.ofList text))
  | none => .error (.badPattern pattern)

end Stencil.Filter
