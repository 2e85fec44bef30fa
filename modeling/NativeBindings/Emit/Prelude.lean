/-!
The fixed text at the top of every module: what marshalers are made of, and helpers for pointers.
-/
namespace NativeBindings.Emit

/-- Imports, formats, strings at native addresses, and access to memory. -/
def prelude : String := "\n".intercalate [
  "\"\"\"ctypes bindings generated by header-bindgen. Do not edit.\"\"\"",
  "",
  "from __future__ import annotations",
  "",
  "import ctypes as _ctypes",
  "import enum as _enum",
  "import struct as _struct",
  "import sys as _sys",
  "import typing as _typing",
  "from pathlib import Path as _Path",
  "from typing import Any, Callable, Optional, TypeAlias, Union",
  "",
  "Pointer = _typing.Optional[int]",
  "",
  "_I8 = _struct.Struct(\"<b\")",
  "_I16 = _struct.Struct(\"<h\")",
  "_I32 = _struct.Struct(\"<i\")",
  "_I64 = _struct.Struct(\"<q\")",
  "_U8 = _struct.Struct(\"<B\")",
  "_U16 = _struct.Struct(\"<H\")",
  "_U32 = _struct.Struct(\"<I\")",
  "_U64 = _struct.Struct(\"<Q\")",
  "_F32 = _struct.Struct(\"<f\")",
  "_F64 = _struct.Struct(\"<d\")",
  "_PTR = _U64",
  "",
  "",
  "class CString:",
  "    \"\"\"A NUL-terminated string at a native address.\"\"\"",
  "",
  "    __slots__ = (\"ptr\", \"_keep\")",
  "",
  "    def __init__(self, ptr: Optional[int] = 0, keep: Any = None):",
  "        self.ptr = ptr or 0",
  "        self._keep = keep",
  "",
  "    @property",
  "    def value(self) -> Optional[bytes]:",
  "        if not self.ptr:",
  "            return None",
  "        return _ctypes.string_at(self.ptr)",
  "",
  "    @property",
  "    def _as_parameter_(self) -> _ctypes.c_char_p:",
  "        return _ctypes.c_char_p(self.ptr or None)",
  "",
  "    def __bool__(self) -> bool:",
  "        return bool(self.ptr)",
  "",
  "    def __eq__(self, other: object) -> bool:",
  "        return isinstance(other, CString) and other.ptr == self.ptr",
  "",
  "    def __hash__(self) -> int:",
  "        return hash(self.ptr)",
  "",
  "    def __str__(self) -> str:",
  "        value = self.value",
  "        return \"\" if value is None else value.decode(\"utf-8\", errors=\"replace\")",
  "",
  "    def __repr__(self) -> str:",
  "        return f\"CString(ptr=\x7bself.ptr:#x\x7d)\"",
  "",
  "",
  "def _read(fmt: _struct.Struct, source: Any, offset: int) -> Any:",
  "    # An int source is a native address",
  "    if isinstance(source, int):",
  "        return fmt.unpack(_ctypes.string_at(source + offset, fmt.size))[0]",
  "    return fmt.unpack_from(source, offset)[0]",
  "",
  "",
  "def _write(fmt: _struct.Struct, target: Any, offset: int, value: Any) -> None:",
  "    if isinstance(target, int):",
  "        _ctypes.memmove(target + offset, fmt.pack(value), fmt.size)",
  "    else:",
  "        fmt.pack_into(target, offset, value)",
  "",
  "",
  "def _address_of(x: Any) -> int:",
  "    if x is None:",
  "        return 0",
  "    if isinstance(x, int):",
  "        return x",
  "    if isinstance(x, CString):",
  "        return x.ptr",
  "    if isinstance(x, (_ctypes.c_void_p, _ctypes.c_char_p, _ctypes._CFuncPtr)):",
  "        return _ctypes.cast(x, _ctypes.c_void_p).value or 0",
  "    if isinstance(x, bytearray):",
  "        return _ctypes.addressof((_ctypes.c_char * len(x)).from_buffer(x))",
  "    if isinstance(x, _ctypes._SimpleCData) or isinstance(x, (_ctypes.Array, _ctypes.Structure, _ctypes.Union)):",
  "        return _ctypes.addressof(x)",
  "    raise TypeError(f\"cannot take the address of \x7btype(x).__name__\x7d\")",
  "",
  "",
  "def read_array(reader: Callable[[Any, int], Any], source: Any, offset: int, item_size: int, length: int) -> list:",
  "    return [reader(source, offset + item_size * i) for i in range(length)]",
  "",
  "",
  "def write_array(writer: Callable[[Any, Any, int], None], values: Any, buffer: Any, offset: int, item_size: int) -> None:",
  "    for i, value in enumerate(values or ()):",
  "        writer(value, buffer, offset + item_size * i)",
  "",
  "",
  "# Callbacks handed to native code must outlive the call that registered them.",
  "_callbacks: list = []",
  "",
  "",
  "def _keep_alive(callback: Any) -> Any:",
  "    _callbacks.append(callback)",
  "    return callback",
  "",
  "",
  "def _callback_address(prototype: Any, fn: Any) -> int:",
  "    if fn is None or isinstance(fn, (int, _ctypes._CFuncPtr)):",
  "        return _address_of(fn)",
  "    return _address_of(_keep_alive(prototype(fn)))",
  "",
  "",
  "def _enum_member(enum_type: Any, value: int) -> Any:",
  "    # value is the unsigned 32-bit field; members may be declared either way",
  "    signed = value - (1 << 32) if value >= 1 << 31 else value",
  "    for candidate in (value, signed):",
  "        try:",
  "            return enum_type(candidate)",
  "        except ValueError:",
  "            continue",
  "    if any(member.value >= 1 << 31 for member in enum_type):",
  "        return value",
  "    return signed",
  "",
  ""]

def helpers : String := "\n".intercalate [
  "_T = _typing.TypeVar(\"_T\")",
  "",
  "",
  "class PtrT(_typing.Generic[_T]):",
  "    \"\"\"Address of a ``_T``; at runtime a plain int.\"\"\"",
  "",
  "",
  "class ConstPtrT(_typing.Generic[_T]):",
  "    \"\"\"Address of a read-only ``_T`` (not enforced at runtime).\"\"\"",
  "",
  "",
  "NULL: Pointer = None",
  "",
  "",
  "def alloc_CString(text: Union[str, bytes]) -> CString:",
  "    data = text.encode(\"utf-8\") if isinstance(text, str) else text",
  "    buffer = _ctypes.create_string_buffer(data)",
  "    return CString(_ctypes.addressof(buffer), keep=buffer)",
  "",
  "",
  "def alloc_opaque_pointer(x: Any, buffer: Any = None) -> Any:",
  "    if buffer is None:",
  "        buffer = _ctypes.create_string_buffer(8)",
  "    _write(_PTR, buffer, 0, _address_of(x))",
  "    return buffer",
  "",
  ""]

end NativeBindings.Emit
