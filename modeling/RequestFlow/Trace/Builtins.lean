/-
Names that tracing takes for given: what the browser, the language and common
libraries define.
-/
import RequestFlow.Order
import RequestFlow.Text.Blank

namespace RequestFlow

/-- A set of names, each once. -/
structure Builtins where
  names : List String := []
  deriving DecidableEq, Repr, Inhabited

namespace Builtins

def insert (builtins : Builtins) (name : String) : Builtins :=
  let name := Text.trim name
  if name.isEmpty || builtins.names.contains name then builtins
  else ⟨name :: builtins.names⟩

/-- Adds names; white space around them is dropped, and blank ones are ignored. -/
def extend (builtins : Builtins) (names : List String) : Builtins := names.foldl insert builtins

def contains (builtins : Builtins) (name : String) : Bool := builtins.names.contains name

def size (builtins : Builtins) : Nat := builtins.names.length

def globals : List String :=
  ["window", "document", "navigator", "location", "history", "screen", "self", "top", "parent",
   "frames", "globalThis", "console", "undefined", "NaN", "Infinity", "arguments", "eval",
   "isFinite", "isNaN", "parseFloat", "parseInt", "decodeURI", "decodeURIComponent", "encodeURI",
   "encodeURIComponent", "escape", "unescape", "alert", "confirm", "prompt", "setTimeout",
   "setInterval", "clearTimeout", "clearInterval", "requestAnimationFrame",
   "cancelAnimationFrame", "requestIdleCallback", "queueMicrotask", "structuredClone", "atob",
   "btoa", "fetch", "postMessage", "addEventListener", "removeEventListener", "dispatchEvent",
   "getComputedStyle", "matchMedia", "scroll", "scrollTo", "scrollBy", "focus", "blur",
   "performance", "crypto", "indexedDB", "caches", "opener", "require", "module", "exports",
   "define"]

def constructors : List String :=
  ["Object", "Function", "Array", "String", "Number", "Boolean", "Symbol", "BigInt", "Date",
   "RegExp", "Error", "TypeError", "RangeError", "SyntaxError", "ReferenceError", "EvalError",
   "URIError", "AggregateError", "Promise", "Proxy", "Reflect", "Map", "Set", "WeakMap",
   "WeakSet", "WeakRef", "ArrayBuffer", "SharedArrayBuffer", "DataView", "Int8Array",
   "Uint8Array", "Uint8ClampedArray", "Int16Array", "Uint16Array", "Int32Array", "Uint32Array",
   "Float32Array", "Float64Array", "BigInt64Array", "BigUint64Array", "JSON", "Math", "Intl",
   "Atomics", "XMLHttpRequest", "WebSocket", "EventSource", "FormData", "URL", "URLSearchParams",
   "Blob", "File", "FileReader", "Headers", "Request", "Response", "AbortController", "Image",
   "Audio", "Option", "Event", "CustomEvent", "MessageEvent", "MessageChannel",
   "BroadcastChannel", "Worker", "SharedWorker", "MutationObserver", "IntersectionObserver",
   "ResizeObserver", "TextEncoder", "TextDecoder", "DOMParser", "XMLSerializer", "Node",
   "Element", "HTMLElement", "Document", "Window", "Notification", "ActiveXObject"]

/-- Members of objects, arrays, strings, numbers, dates, promises and elements. -/
def members : List String :=
  ["prototype", "constructor", "call", "apply", "bind", "toString", "valueOf", "hasOwnProperty",
   "isPrototypeOf", "propertyIsEnumerable", "assign", "defineProperty", "defineProperties",
   "freeze", "seal", "getPrototypeOf", "setPrototypeOf", "getOwnPropertyNames", "fromEntries",
   "push", "pop", "shift", "unshift", "slice", "splice", "concat", "indexOf", "lastIndexOf",
   "includes", "findIndex", "forEach", "reduce", "reduceRight", "some", "every", "flat",
   "flatMap", "fill", "isArray", "charAt", "charCodeAt", "codePointAt", "fromCharCode",
   "substring", "substr", "replaceAll", "matchAll", "trim", "trimStart", "trimEnd",
   "toLowerCase", "toUpperCase", "startsWith", "endsWith", "padStart", "padEnd", "repeat",
   "normalize", "localeCompare", "toFixed", "toPrecision", "abs", "ceil", "floor", "round",
   "pow", "random", "sqrt", "sign", "trunc", "exp", "sin", "cos", "tan", "PI", "now", "getTime",
   "getDate", "getDay", "getFullYear", "getHours", "getMinutes", "getMonth", "getSeconds",
   "getMilliseconds", "toISOString", "toUTCString", "stringify", "then", "catch", "finally",
   "resolve", "reject", "race", "allSettled", "getElementById", "getElementsByClassName",
   "getElementsByTagName", "getElementsByName", "querySelector", "querySelectorAll",
   "createElement", "createTextNode", "appendChild", "removeChild", "insertBefore",
   "replaceChild", "cloneNode", "setAttribute", "getAttribute", "removeAttribute",
   "hasAttribute", "innerHTML", "outerHTML", "textContent", "innerText", "classList", "dataset",
   "style", "preventDefault", "stopPropagation", "stopImmediatePropagation", "currentTarget",
   "readyState", "warn"]

def libraries : List String :=
  ["$", "jQuery", "_", "angular", "React", "ReactDOM", "Vue", "Backbone", "Ember", "Ext",
   "YAHOO", "YUI", "Prototype", "MooTools", "dojo", "ko", "moment", "axios", "Zepto"]

/-- The names that every analysis starts with. -/
def defaults : Builtins :=
  extend {} (globals ++ constructors ++ members ++ libraries)

end Builtins

end RequestFlow
